import LineScript.Integer

/-!
# Values and namespaces

A variable holds a number or a text, and each of the two can be used as the other: a number is
written in base ten, a text is read as an integer where it is one. A namespace keeps the variables
of a session and their values, in the order in which the variables were first set. A variable that
is set again keeps its place.
-/

set_option autoImplicit false

namespace LineScript

/-- What a variable holds. -/
inductive Value where
  | number (n : Int)
  | text (s : String)
  deriving DecidableEq, Repr

namespace Value

/-- A value as a number: a text is read. -/
def toInteger : Value → Integer.Reading
  | number n => .integer n
  | text s => Integer.read s

/-- A value as a text: a number is written in base ten. The numbers of a program are in the range of
64 bits, so none of them has too many digits to be written. -/
def render : Value → String
  | number n => Integer.render n
  | text s => s

/-- The keyword of the statement that assigns values of this kind. -/
def keyword : Value → String
  | number _ => "Zahl"
  | text _ => "Text"

end Value

/-- Variables with their values, in the order of their first setting. -/
structure Namespace where
  entries : List (String × Value)
  deriving DecidableEq, Repr

namespace Namespace

/-- No variables. -/
def empty : Namespace := ⟨[]⟩

/-- The names of the variables, in order. -/
def names (space : Namespace) : List String := space.entries.map Prod.fst

/-- The value of a variable among entries. -/
def valueAmong? (name : String) : List (String × Value) → Option Value
  | [] => none
  | (other, value) :: rest => if other = name then some value else valueAmong? name rest

/-- The value of a variable. -/
def get? (space : Namespace) (name : String) : Option Value :=
  valueAmong? name space.entries

/-- Entries with a variable set. -/
def setEntry (name : String) (value : Value) : List (String × Value) → List (String × Value)
  | [] => [(name, value)]
  | (other, old) :: rest =>
    if other = name then (other, value) :: rest else (other, old) :: setEntry name value rest

/-- Sets a variable. -/
def set (space : Namespace) (name : String) (value : Value) : Namespace :=
  ⟨setEntry name value space.entries⟩

/-- A variable has the value it was set to, and the others keep theirs. -/
theorem get?_set (space : Namespace) (name other : String) (value : Value) :
    (space.set name value).get? other = if name = other then some value else space.get? other := by
  obtain ⟨entries⟩ := space
  simp only [get?, set]
  induction entries with
  | nil => simp [setEntry, valueAmong?]
  | cons entry entries ih =>
    obtain ⟨key, old⟩ := entry
    by_cases hkey : key = name
    · simp only [setEntry, if_pos hkey, valueAmong?]
      subst hkey
      split <;> rfl
    · simp only [setEntry, if_neg hkey, valueAmong?, ih]
      by_cases h : name = other
      · have hother : ¬key = other := fun hk => hkey (hk.trans h.symm)
        rw [if_neg hother, if_pos h, if_pos h]
      · rw [if_neg h, if_neg h]

theorem map_fst_setEntry (name : String) (value : Value) (entries : List (String × Value)) :
    (setEntry name value entries).map Prod.fst
      = if name ∈ entries.map Prod.fst then entries.map Prod.fst
        else entries.map Prod.fst ++ [name] := by
  induction entries with
  | nil => rfl
  | cons entry entries ih =>
    obtain ⟨key, old⟩ := entry
    by_cases hkey : key = name
    · simp [setEntry, hkey]
    · have hne : name ≠ key := fun h => hkey h.symm
      by_cases hmem : name ∈ entries.map Prod.fst
      · rw [if_pos hmem] at ih
        rw [if_pos (by rw [List.map_cons]; exact List.mem_cons_of_mem _ hmem)]
        simp [setEntry, hkey, ih]
      · rw [if_neg hmem] at ih
        rw [if_neg (by simpa [hne] using hmem)]
        simp [setEntry, hkey, ih]

/-- Setting a variable adds its name at the end, or leaves the names as they are. -/
theorem names_set (space : Namespace) (name : String) (value : Value) :
    (space.set name value).names
      = if name ∈ space.names then space.names else space.names ++ [name] :=
  map_fst_setEntry name value space.entries

end Namespace

end LineScript
