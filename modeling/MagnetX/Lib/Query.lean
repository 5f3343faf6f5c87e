/-
# `MagnetX.Lib.Query` — the query of a URL

A query is written field by field, `name=value`, with `&` between them and both parts
percent-encoded.  It is read the way a server reads it: split at every `&`, each piece at its
first `=`, then decoded.  Reading gives back what was written, whatever the texts, as soon
as the encoder lets neither of the two separators nor the percent sign through
(`read_write`).

The name of a field may stand for a place in a tree: the name of a root and then, in
brackets, the names of the nodes on the way, with `[]` for an element of an array.  Such a
name can be read as the place again if no name on the way ends its bracket
(`Path.read_write`); `Path.Clean` is that condition.
-/
import MagnetX.Lib.Percent

namespace MagnetX.Lib.Query

open Percent

/-! ## Fields -/

/-- Fields that are encoded already, put together. -/
def join (fields : List (String × String)) : String :=
  "&".intercalate (fields.map fun f => f.1 ++ "=" ++ f.2)

def write (allowed : Char → Bool) (fields : List (String × String)) : String :=
  join (fields.map fun f => (encode allowed f.1, encode allowed f.2))

/-- What a percent-encoded text stands for, if its bytes are UTF-8. -/
def readText (cs : List Char) : Option String :=
  (decode cs).toByteArray.utf8Decode?.map fun text => String.ofList text.toList

def readField (cs : List Char) : Option (String × String) := do
  let name ← readText (cs.takeWhile (· ≠ '='))
  let value ← readText ((cs.dropWhile (· ≠ '=')).drop 1)
  return (name, value)

/-- The fields of a query.  Empty pieces are passed over. -/
def read (query : String) : Option (List (String × String)) :=
  ((query.toList.splitOn '&').filter fun piece => !piece.isEmpty).mapM readField

variable {allowed : Char → Bool}

theorem readText_encode (hpercent : allowed '%' = false) (s : String) :
    readText (encode allowed s).toList = some s := by
  rw [readText, decode_encode hpercent]
  show (s.toList.utf8Encode.utf8Decode?).map _ = _
  rw [List.utf8Decode?_utf8Encode, Option.map_some, List.toList_toArray, String.ofList_toList]

/-- A separator that is not allowed is not in an encoded text. -/
theorem not_mem_encode {c : Char} (hc : c ∉ escapeChars) (hallowed : allowed c = false)
    (s : String) : c ∉ (encode allowed s).toList := by
  rw [mem_encode_iff hc, hallowed]
  rintro ⟨-, h⟩
  cases h

theorem readField_write (hpercent : allowed '%' = false) (hequals : allowed '=' = false)
    (name value : String) :
    readField (encode allowed name ++ "=" ++ encode allowed value).toList = some (name, value) := by
  have hname : ∀ c ∈ (encode allowed name).toList, (c ≠ '=' : Bool) = true := by
    intro c hc
    rw [decide_eq_true_eq]
    rintro rfl
    exact not_mem_encode (by decide) hequals name hc
  have hsplit : (encode allowed name ++ "=" ++ encode allowed value).toList =
      (encode allowed name).toList ++ '=' :: (encode allowed value).toList := by
    simp
  rw [hsplit, readField, List.takeWhile_append_of_pos hname, List.dropWhile_append_of_pos hname,
    List.takeWhile_cons_of_neg (by decide), List.append_nil, List.dropWhile_cons_of_neg (by decide),
    List.drop_one, List.tail_cons, readText_encode hpercent, readText_encode hpercent]
  rfl

/-- **A query gives back the fields it was written from.** -/
theorem read_write (hpercent : allowed '%' = false) (hand : allowed '&' = false)
    (hequals : allowed '=' = false) (fields : List (String × String)) :
    read (write allowed fields) = some fields := by
  have hpieces : ∀ piece ∈
      fields.map fun f => (encode allowed f.1 ++ "=" ++ encode allowed f.2).toList,
        '&' ∉ piece ∧ (!piece.isEmpty) = true := by
    intro piece hpiece
    obtain ⟨f, -, rfl⟩ := List.mem_map.mp hpiece
    constructor
    · rw [String.toList_append, String.toList_append, List.mem_append, List.mem_append]
      rintro ((h | h) | h)
      · exact not_mem_encode (by decide) hand f.1 h
      · exact absurd h (by decide)
      · exact not_mem_encode (by decide) hand f.2 h
    · simp
  have hread : (fields.map fun f =>
      (encode allowed f.1 ++ "=" ++ encode allowed f.2).toList).mapM readField = some fields := by
    clear hpieces
    induction fields with
    | nil => rfl
    | cons f fields ih =>
        rw [List.map_cons, List.mapM_cons, readField_write hpercent hequals, ih]
        rfl
  have hquery : (write allowed fields).toList = ['&'].intercalate
      (fields.map fun f => (encode allowed f.1 ++ "=" ++ encode allowed f.2).toList) := by
    rw [write, join, String.toList_intercalate, List.map_map, List.map_map]
    rfl
  rw [read, hquery]
  cases fields with
  | nil => rfl
  | cons f fields =>
      rw [List.splitOn_intercalate _ (fun piece hpiece => (hpieces piece hpiece).1)
        (List.cons_ne_nil _ _), List.filter_eq_self.mpr fun piece hpiece => (hpieces piece hpiece).2]
      exact hread

/-- A query put behind another has the fields of both. -/
theorem read_append (p q : String) :
    read (p ++ "&" ++ q) = (read p).bind fun fields => (read q).map (fields ++ ·) := by
  have hsplit : (p ++ "&" ++ q).toList.splitOn '&' =
      p.toList.splitOn '&' ++ q.toList.splitOn '&' := by
    rw [String.toList_append, String.toList_append, List.append_assoc]
    exact List.splitOn_append_cons_self ..
  rw [read, hsplit, List.filter_append, List.mapM_append]
  show Option.bind (read p) _ = _
  cases read p with
  | none => rfl
  | some fields =>
      show Option.bind (read q) _ = _
      cases read q with
      | none => rfl
      | some more => rfl

/-! ## Places in a tree -/

inductive Step where
  | key (name : String)
  | element
deriving DecidableEq, Repr

/-- A place in a tree: the name of a root, and the way from it. -/
structure Path where
  root : String
  steps : List Step := []
deriving DecidableEq, Repr

namespace Path

def snoc (path : Path) (step : Step) : Path := { path with steps := path.steps ++ [step] }

end Path

def Step.write (element : String) : Step → String
  | .key name => "[" ++ name ++ "]"
  | .element => element

/-- The name of a place; `element` is what an element of an array adds to it. -/
def Path.write (element : String) (path : Path) : String :=
  path.root ++ String.join (path.steps.map (Step.write element))

@[simp] theorem Path.write_snoc (element : String) (path : Path) (step : Step) :
    (path.snoc step).write element = path.write element ++ step.write element := by
  rw [Path.write, Path.write, Path.snoc, List.map_append, String.join_append, String.append_assoc]
  simp

/-- What stands in a pair of brackets. -/
def Step.ofName (name : List Char) : Step :=
  if name.isEmpty then .element else .key (String.ofList name)

/-- The steps of a place, read character by character; `some name` inside a bracket. -/
def readSteps : Option (List Char) → List Char → Option (List Step)
  | none, [] => some []
  | none, '[' :: cs => readSteps (some []) cs
  | none, _ :: _ => none
  | some _, [] => none
  | some name, c :: cs =>
      if c = ']' then (readSteps none cs).map (Step.ofName name :: ·)
      else readSteps (some (name ++ [c])) cs

def Path.read (s : String) : Option Path :=
  (readSteps none (s.toList.dropWhile (· ≠ '['))).map fun steps =>
    ⟨String.ofList (s.toList.takeWhile (· ≠ '[')), steps⟩

/-- A name in brackets is not empty and does not end the bracket. -/
def Step.Clean : Step → Prop
  | .key name => name ≠ "" ∧ ']' ∉ name.toList
  | .element => True

/-- No name on the way opens or ends a bracket where it must not. -/
def Path.Clean (path : Path) : Prop :=
  '[' ∉ path.root.toList ∧ ∀ step ∈ path.steps, step.Clean

instance : DecidablePred Step.Clean
  | .key _ => inferInstanceAs (Decidable (_ ∧ _))
  | .element => inferInstanceAs (Decidable True)

instance : DecidablePred Path.Clean := fun _ => inferInstanceAs (Decidable (_ ∧ _))

theorem readSteps_name {name : List Char} (hname : ']' ∉ name) (front cs : List Char) :
    readSteps (some front) (name ++ ']' :: cs) =
      (readSteps none cs).map (Step.ofName (front ++ name) :: ·) := by
  induction name generalizing front with
  | nil => rw [List.append_nil]; rfl
  | cons c name ih =>
      obtain ⟨hc, hname'⟩ := not_or.mp (mt List.mem_cons.mpr hname)
      rw [List.cons_append, readSteps, if_neg (Ne.symm hc), ih hname', List.append_assoc]
      rfl

theorem readSteps_write {step : Step} (hclean : step.Clean) (cs : List Char) :
    readSteps none ((step.write "[]").toList ++ cs) = (readSteps none cs).map (step :: ·) := by
  cases step with
  | key name =>
      obtain ⟨hne, hend⟩ := hclean
      have hwrite : ((Step.key name).write "[]").toList ++ cs =
          '[' :: (name.toList ++ ']' :: cs) := by
        simp [Step.write]
      have hstep : Step.ofName name.toList = .key name := by
        rw [Step.ofName, if_neg, String.ofList_toList]
        rw [List.isEmpty_iff]
        exact fun h => hne (String.toList_inj.mp h)
      rw [hwrite]
      show readSteps (some []) _ = _
      rw [readSteps_name hend, List.nil_append, hstep]
  | element => rfl

/-- **The name of a place gives back the place.** -/
theorem Path.read_write {path : Path} (hclean : path.Clean) :
    Path.read (path.write "[]") = some path := by
  have hsteps : ∀ steps : List Step, (∀ step ∈ steps, step.Clean) →
      readSteps none (String.join (steps.map (Step.write "[]"))).toList = some steps := by
    intro steps
    induction steps with
    | nil => intro _; rfl
    | cons step steps ih =>
        intro hall
        rw [List.map_cons, String.join_cons, String.toList_append,
          readSteps_write (hall step (List.mem_cons_self ..)),
          ih fun s hs => hall s (List.mem_cons_of_mem _ hs)]
        rfl
  -- what follows the root is nothing, or starts with a bracket
  have hrest : (String.join (path.steps.map (Step.write "[]"))).toList.takeWhile (· ≠ '[') = [] := by
    cases path.steps with
    | nil => rfl
    | cons step steps =>
        rw [List.map_cons, String.join_cons, String.toList_append]
        cases step <;> simp [Step.write]
  have hroot : ∀ c ∈ path.root.toList, (c ≠ '[' : Bool) = true := by
    intro c hc
    rw [decide_eq_true_eq]
    rintro rfl
    exact hclean.1 hc
  have hdrop := List.takeWhile_append_dropWhile (p := (· ≠ '['))
    (l := (String.join (path.steps.map (Step.write "[]"))).toList)
  rw [hrest, List.nil_append] at hdrop
  rw [Path.read, Path.write, String.toList_append, List.takeWhile_append_of_pos hroot,
    List.dropWhile_append_of_pos hroot, hrest, hdrop, hsteps _ hclean.2, List.append_nil,
    String.ofList_toList]
  rfl

end MagnetX.Lib.Query
