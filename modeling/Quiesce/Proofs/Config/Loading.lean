import Mathlib.Control.Monad.Basic
import Quiesce.Config.Load

set_option autoImplicit false

namespace Quiesce

namespace Text

end Text

namespace Config

namespace Files

variable {f : Files} {path s : String} {why : Unreadable} {b : ByteArray}

def Holds (f : Files) (path s : String) : Prop := f.bytes path = .ok s.toUTF8

instance : Decidable (f.Holds path s) := inferInstanceAs (Decidable (_ = _))

end Files

/-- What reading a text results in, and what it results in when a file at the path holds it. -/
inductive InFile (path : String) : Except Error Config → Except Error Config → Prop where
  | accepted (c : Config) : InFile path (.ok c) (.ok c)
  | invalid (why : Violation) : InFile path (.error (.invalid why)) (.error (.invalid why))
  | malformed (why : Malformed) :
    InFile path (.error (.parse none why)) (.error (.parse (some path) why))

section

variable {path : String} {q r : Except Error Config}

theorem InFile.path? {e : Error} (h : InFile path q (.error e)) :
    e.path? = some path ∨ ∃ why, e = .invalid why := by
  cases h with
  | invalid why => exact .inr ⟨why, rfl⟩
  | malformed why => exact .inl rfl

end

/-- What loading the file at the path results in. -/
inductive Loads (f : Files) (path : String) : Except Error Config → Prop where
  | text {s : String} {r : Except Error Config} :
    f.Holds path s → InFile path (ofText s) r → Loads f path r
  | unreadable {why : Unreadable} :
    f.bytes path = .error why → Loads f path (.error (.read path why))
  | notText {b : ByteArray} :
    f.bytes path = .ok b → (∀ s : String, s.toUTF8 ≠ b) →
      Loads f path (.error (.read path .notText))

section

variable {f : Files} {path s : String} {r : Except Error Config}

theorem Loads.path? {e : Error} (h : Loads f path (.error e)) :
    e.path? = some path ∨ ∃ why, e = .invalid why := by
  cases h with
  | text hs hr => exact hr.path?
  | unreadable hb => exact .inl rfl
  | notText hb hn => exact .inl rfl

end

end Config

end Quiesce
