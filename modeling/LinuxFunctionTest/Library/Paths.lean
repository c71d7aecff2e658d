import Mathlib.Data.List.Infix
import Mathlib.Data.Nat.Notation

/-!
# Paths with dots

The components of a path are resolved from left to right: an empty one and `.` stay, `..` goes up and stays at the
root, and every other one goes down. Seen from the outside a path does two things: it climbs so many times, and then
it descends along so many names.
-/

namespace LinuxFunctionTest.Paths

/-- What a component of a path does. -/
inductive Move (α : Type*) where
  | stay
  | up
  | enter (name : α)
  deriving DecidableEq

/-- A path in normal form: how often it climbs, and the names along which it descends then. -/
structure Relative (α : Type*) where
  climbs : ℕ
  descends : List α
  deriving DecidableEq

variable {α : Type*}

/-- A move from a place, given by the names from the root. -/
def move (place : List α) : Move α → List α
  | .stay => place
  | .up => place.dropLast
  | .enter name => place ++ [name]

/-- The place where a path leads. -/
def resolve (place : List α) (path : List (Move α)) : List α := path.foldl move place

/-- A move at the end of a path in normal form. -/
def Relative.move (r : Relative α) : Move α → Relative α
  | .stay => r
  | .up => if r.descends = [] then { r with climbs := r.climbs + 1 } else { r with descends := r.descends.dropLast }
  | .enter name => { r with descends := r.descends ++ [name] }

/-- The normal form of a path. -/
def normalForm (path : List (Move α)) : Relative α := path.foldl Relative.move ⟨0, []⟩

/-- Where a path in normal form leads. -/
def Relative.from (r : Relative α) (place : List α) : List α := place.take (place.length - r.climbs) ++ r.descends

/-- The place is inside a directory, and is not the directory itself. -/
def Below (directory place : List α) : Prop := directory <+: place ∧ place ≠ directory

/-- A move at the end of a path in normal form is a move from where it leads. -/
theorem Relative.from_move (r : Relative α) (place : List α) (m : Move α) :
    (r.move m).from place = Paths.move (r.from place) m := by
  cases m with
  | stay => rfl
  | enter name => simp only [Relative.move, Relative.from, Paths.move, List.append_assoc]
  | up =>
    simp only [Relative.move, Relative.from, Paths.move]
    split
    · next hdescends =>
      rw [hdescends, List.append_nil, List.append_nil, List.dropLast_eq_take, List.take_take, List.length_take]
      congr 1
      dsimp only
      omega
    · next hdescends => rw [List.dropLast_append_of_ne_nil hdescends]

/-- Moves behind a path in normal form, by induction on the moves. -/
theorem foldl_from (path : List (Move α)) (r : Relative α) (place : List α) :
    (path.foldl Relative.move r).from place = resolve (r.from place) path := by
  induction path generalizing r with
  | nil => rfl
  | cons m path ih => rw [List.foldl_cons, ih, Relative.from_move]; rfl

/-- A path leads where its normal form does. -/
theorem resolve_eq (place : List α) (path : List (Move α)) : resolve place path = (normalForm path).from place := by
  have h := foldl_from path ⟨0, []⟩ place
  rw [normalForm, h, Relative.from, Nat.sub_zero, List.take_length, List.append_nil]

/-- A path that follows another. -/
theorem resolve_append (place : List α) (path path' : List (Move α)) :
    resolve place (path ++ path') = resolve (resolve place path) path' := List.foldl_append

/-- A place below a directory. -/
theorem below_iff {directory place : List α} :
    Below directory place ↔ ∃ rest, rest ≠ [] ∧ place = directory ++ rest := by
  constructor
  · rintro ⟨⟨rest, rfl⟩, hne⟩
    refine ⟨rest, fun hrest => hne ?_, rfl⟩
    rw [hrest, List.append_nil]
  · rintro ⟨rest, hrest, rfl⟩
    exact ⟨List.prefix_append _ _, fun h => hrest (by simpa using h)⟩

end LinuxFunctionTest.Paths
