import Stencil.Text.Blank
import Stencil.Text.Pieces
import Stencil.Scope.Json

/-!
# `Stencil.Outline.Line` — one line of an outline

## Contents
- **Parts of a line.** How deep it is, whether it names a folder, its template id, its name and its
  parameters, each read off the text on its own.
- **Classified lines.** `Line.classify` puts the parts together. A line that ends in a colon is a
  folder; any other line is a file, written `[template id]name - {parameters}`.

Nesting is counted in tabs, which may stand anywhere in the line. A file line is cut at its hyphens:
the first non-empty piece holds template id and name, the last one the parameters.
-/

namespace Stencil

open Text

/-- What a line names. -/
inductive Kind where
  /-- A folder. -/
  | folder
  /-- A file. -/
  | file
  deriving Repr, DecidableEq

/-- The word for a kind. -/
def Kind.word : Kind → String
  | .folder => "folder"
  | .file => "file"

/-- A line with its parts. -/
structure Line where
  /-- How many folders enclose what the line names. -/
  depth : Nat
  /-- Folder or file. -/
  kind : Kind
  /-- The name as it stands, placeholders and notes included. -/
  name : String := ""
  /-- The template of a file, empty if it has none. -/
  templateId : String := ""
  /-- The file's own parameters, if the line has readable ones. -/
  parameters : Option Scope := none
  deriving Repr, DecidableEq

namespace Line

/-! ## Parts of a line -/

/-- The number of tabs in a line. -/
def tabs (cs : List Char) : Nat := cs.count '\t'

/-- Whether a line names a folder: its last character that is no blank is a colon. -/
def isFolder (cs : List Char) : Bool := (strip cs).getLast? == some ':'

/-- The non-empty pieces between hyphens. -/
def segments (cs : List Char) : List (List Char) :=
  (pieces '-' cs).filter fun p => !p.isEmpty

/-- The first piece, stripped: template id and name of a file. -/
def left (cs : List Char) : List Char := strip ((segments cs).headD [])

/-- What stands before the last `c`, if there is one. -/
def beforeLast? (c : Char) (cs : List Char) : Option (List Char) :=
  if c ∈ cs then some ((cs.reverse.dropWhile (· != c)).drop 1).reverse else none

/-- What stands between brackets: from the first opening bracket that has a closing one behind it on the same
    line of text, to the last such closing bracket. -/
def bracketed? : List Char → Option (List Char)
  | [] => none
  | c :: cs =>
    if c = '[' then
      match beforeLast? ']' (cs.takeWhile (· != '\n')) with
      | some inner => some inner
      | none => bracketed? cs
    else bracketed? cs

/-- What stands before the last `c` is all in front of a `c` that no other follows. -/
theorem beforeLast?_append {c : Char} (as : List Char) {bs : List Char} (h : c ∉ bs) :
    beforeLast? c (as ++ c :: bs) = some as := by
  have hdrop : (bs.reverse ++ c :: as.reverse).dropWhile (· != c) = c :: as.reverse := by
    rw [List.dropWhile_append_of_pos, List.dropWhile_cons_of_neg (by simp)]
    intro d hd
    have : d ≠ c := by
      rintro rfl
      exact h (List.mem_reverse.mp hd)
    simpa using this
  rw [beforeLast?, if_pos (by simp), List.reverse_append, List.reverse_cons, List.append_assoc,
    List.singleton_append, hdrop]
  simp

/-- Whether some opening bracket has a closing one behind it. -/
def HasBrackets (cs : List Char) : Prop := ∃ before inner behind, cs = before ++ '[' :: (inner ++ ']' :: behind)

theorem bracketed?_eq_none {cs : List Char} (h : ¬ HasBrackets cs) : bracketed? cs = none := by
  induction cs with
  | nil => rfl
  | cons c cs ih =>
    have hrest : ¬ HasBrackets cs := by
      rintro ⟨before, inner, behind, rfl⟩
      exact h ⟨c :: before, inner, behind, rfl⟩
    rw [bracketed?]
    split
    · next hc =>
      have hclose : ']' ∉ cs.takeWhile (· != '\n') := by
        intro hin
        obtain ⟨inner, behind, hcs⟩ := List.append_of_mem ((List.takeWhile_sublist _).subset hin)
        exact h ⟨[], inner, behind, by rw [hc, hcs]; rfl⟩
      rw [beforeLast?, if_neg hclose]
      exact ih hrest
    · exact ih hrest

/-- On one line of text the brackets that count are the first opening and the last closing one. -/
theorem bracketed?_append {before span behind : List Char} (hopen : '[' ∉ before) (hclose : ']' ∉ behind)
    (hline : '\n' ∉ span ++ ']' :: behind) :
    bracketed? (before ++ '[' :: (span ++ ']' :: behind)) = some span := by
  induction before with
  | nil =>
    have hpass : ∀ c ∈ span ++ ']' :: behind, (c != '\n') = true := by
      intro c hc
      have hne : c ≠ '\n' := by
        rintro rfl
        exact hline hc
      simpa using hne
    have hall : (span ++ ']' :: behind).takeWhile (· != '\n') = span ++ ']' :: behind := by
      have happ : (span ++ ']' :: behind ++ []).takeWhile (· != '\n') = span ++ ']' :: behind ++ [] :=
        List.takeWhile_append_of_pos hpass
      rwa [List.append_nil] at happ
    rw [List.nil_append, bracketed?, if_pos rfl, hall, beforeLast?_append span hclose]
  | cons c before ih =>
    simp only [List.mem_cons, not_or] at hopen
    rw [List.cons_append, bracketed?, if_neg (Ne.symm hopen.1), ih hopen.2]

/-- The template id in a text: what stands between brackets, without any brackets inside. -/
def templateIdOf (cs : List Char) : List Char :=
  match bracketed? cs with
  | some inner => inner.filter fun c => c != '[' && c != ']'
  | none => []

/-- The name of a file: the first piece without its bracketed template id. -/
def fileName (cs : List Char) : List Char :=
  let l := left cs
  eraseWord ('[' :: templateIdOf l ++ [']']) l

/-- The name of a folder: the text without the colon at its end. -/
def folderName (cs : List Char) : List Char :=
  let s := strip cs
  strip (if s.getLast? = some ':' then s.dropLast else s)

/-- The parameters of a file: the last piece, if it is a JSON object of strings. -/
def parametersOf (cs : List Char) : Option Scope :=
  match (segments cs).getLast? with
  | none => none
  | some payload => Scope.ofJson? (strip payload)

/-! ## Classified lines -/

/-- A folder line. -/
def ofFolder (cs : List Char) : Line :=
  let name := folderName cs
  { depth := tabs cs
    kind := .folder
    name := String.ofList name
    templateId := String.ofList (templateIdOf name) }

/-- A file line. -/
def ofFile (cs : List Char) : Line :=
  let s := strip cs
  { depth := tabs cs
    kind := .file
    name := String.ofList (fileName s)
    templateId := String.ofList (templateIdOf (left s))
    parameters := parametersOf s }

/-- A line with its parts. -/
def classify (cs : List Char) : Line := if isFolder cs then ofFolder cs else ofFile cs

@[simp] theorem depth_classify (cs : List Char) : (classify cs).depth = tabs cs := by
  unfold classify
  split <;> rfl

end Line

end Stencil
