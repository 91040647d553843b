import Stencil.Entries

/-!
# `Stencil.Scope.Basic` — parameters in order

A `Scope` maps parameter names to their values, in the order in which the names first came. A file
may bring a scope of its own, which is laid over the scope of the whole run (`Scope.overlay`).
-/

namespace Stencil

/-- Parameters: distinct names with their values, in order. -/
@[ext] structure Scope where
  /-- The names with their values. -/
  entries : List (String × String)
  /-- No name comes twice. -/
  nodup : (Entries.keys entries).Nodup
  deriving DecidableEq

namespace Scope

/-- The scope without parameters. -/
def empty : Scope := ⟨[], List.nodup_nil⟩

instance : Inhabited Scope := ⟨empty⟩

instance : EmptyCollection Scope := ⟨empty⟩

instance : Repr Scope := ⟨fun s n => reprPrec s.entries n⟩

/-- The value of a parameter. -/
def get? (s : Scope) (name : String) : Option String := Entries.get? name s.entries

/-- Gives a parameter its value; a new name goes to the end. -/
def insert (s : Scope) (name value : String) : Scope :=
  ⟨Entries.insert name value s.entries, Entries.nodup_keys_insert s.nodup⟩

/-- The scope with the entries of a list inserted one after the other. -/
def insertAll (s : Scope) (es : List (String × String)) : Scope :=
  ⟨Entries.merge s.entries es, Entries.nodup_keys_merge es s.nodup⟩

/-- The scope that a list of entries makes: of one name, the first position and the last value. -/
def ofList (es : List (String × String)) : Scope := empty.insertAll es

/-- Lays `top` over `base`: where both have a parameter, `top` gives the value. -/
def overlay (base top : Scope) : Scope := base.insertAll top.entries

/-- The scope that a file sees: its own parameters, if it has any, over those of the run. -/
def merged (own : Option Scope) (run : Scope) : Scope := run.overlay (own.getD empty)

@[simp] theorem entries_empty : empty.entries = [] := rfl

@[simp] theorem entries_insertAll (s : Scope) (es : List (String × String)) :
    (s.insertAll es).entries = Entries.merge s.entries es := rfl

/-- The entries of a scope make that scope. -/
@[simp] theorem ofList_entries (s : Scope) : ofList s.entries = s := by
  ext1
  exact Entries.collapse_eq_self s.nodup

/-- A file sees its own value of a parameter, and that of the run if it has none. -/
theorem get?_merged (own run : Scope) (name : String) :
    (merged (some own) run).get? name = (own.get? name).or (run.get? name) :=
  Entries.get?_merge own.nodup name run.entries

end Scope

end Stencil
