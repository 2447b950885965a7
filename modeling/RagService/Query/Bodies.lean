import RagService.Foundation.Numbers
import RagService.Store.Model

/-!
# Bodies of answers

The values that `response.json()` gives, read as Python objects: `v.get(key, default)`,
`v[key]`, the items of `for x in v`, `int(v)` and `float(v)`, with the exceptions that they
raise.
-/

namespace RagService

namespace Json

def get (v : Json) (key : Text) (default : Json) : Except Exception Json :=
  match v with
  | .obj fields => .ok ((field fields key).getD default)
  | _ => .error (.other "AttributeError".toList)

/-- `v[key]` for a text key -/
def subscript (v : Json) (key : Text) : Except Exception Json :=
  match v with
  | .obj fields =>
      match field fields key with
      | some value => .ok value
      | none => .error (.other "KeyError".toList)
  | _ => .error (.other "TypeError".toList)

/-- What `for x in v` runs over. -/
def iterate (v : Json) : Except Exception (List Json) :=
  match v with
  | .arr items => .ok items
  | .obj fields => .ok (fields.map fun f => .str f.1)
  | .str s => .ok (s.map fun c => .str [c])
  | _ => .error (.other "TypeError".toList)

def toInt (v : Json) : Except Exception Int :=
  match v with
  | .int z => .ok z
  | .bool b => .ok (if b then 1 else 0)
  | .float literal =>
      match Double.ofLiteral literal with
      | .finite q => .ok (if q < 0 then ⌈q⌉ else ⌊q⌋)
      | .infinite _ => .error (.other "OverflowError".toList)
      | .nan => .error (.value "cannot convert float NaN to integer".toList)
  | .str s =>
      match Double.intOfText s with
      | some z => .ok z
      | none => .error (.value "invalid literal for int()".toList)
  | _ => .error (.other "TypeError".toList)

/-- `float(z)` of an integer -/
def floatOfInt (z : Int) : Except Exception Double :=
  match Double.ofRat z with
  | .finite q => .ok (.finite q)
  | _ => .error (.other "OverflowError".toList)

def toFloat (v : Json) : Except Exception Double :=
  match v with
  | .int z => floatOfInt z
  | .bool b => floatOfInt (if b then 1 else 0)
  | .float literal => .ok (Double.ofLiteral literal)
  | .str s =>
      match Double.ofText s with
      | some x => .ok x
      | none => .error (.value "could not convert string to float".toList)
  | _ => .error (.other "TypeError".toList)

def IsObject (v : Json) : Prop :=
  exists fields, v = .obj fields

/-!
# What is read

When a value is read without an exception.
-/

variable {v : Json} {key : Text}

theorem get_eq_ok {default value : Json} : v.get key default = .ok value ↔
    exists fields, v = .obj fields ∧ value = (field fields key).getD default := by
  cases v with
  | obj fields =>
      constructor
      · intro h
        cases h
        exact ⟨fields, rfl, rfl⟩
      · intro h
        rcases h with ⟨fields', h, rfl⟩
        cases h
        rfl
  | null | bool _ | int _ | float _ | str _ | arr _ =>
      constructor
      · intro h
        cases h
      · intro h
        rcases h with ⟨fields, h, -⟩
        cases h

end Json

section

variable {α β : Type}

theorem bind_eq_ok {x : Except Exception α} {f : α -> Except Exception β} {b : β} :
    x >>= f = .ok b ↔ exists a, x = .ok a ∧ f a = .ok b := by
  cases x with
  | ok a =>
      show f a = .ok b ↔ _
      simp
  | error e =>
      show (.error e : Except Exception β) = .ok b ↔ _
      simp

end

end RagService
