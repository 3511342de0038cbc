import Singlink.Srs.Metered
import Singlink.Srs.RoundTrip
/-!
# Bounds of reading a rule set

`Read` makes slices of any length a file names. Each element takes a byte at least,
so that a file with fewer bytes left than that is not accepted.
-/

namespace Singlink.Srs

open Lib Lib.Codec Lib.Metered Options List Bool

variable {Matcher AdGuardMatcher : Type}

/-! ## Bounds -/

variable {x : Externals Matcher AdGuardMatcher}

theorem read_erases {recover : Bool} {inflate : Bytes → Except ReadError (Bytes × ReadError)}
    (hinflate : ∀ bytes, inflate bytes = (x.decompress bytes).map (·, .eof)) (file : Bytes) :
    (Metered.read x recover inflate file).1 = read x recover file := by
  unfold Metered.read read
  cases readHeader file with
  | error err => rfl
  | ok p =>
    obtain ⟨version, rest⟩ := p
    simp only [hinflate, bind, Except.bind]
    cases x.decompress rest with
    | error err => rfl
    | ok data =>
      obtain ⟨hok, herr⟩ := Metered.follows_rules x recover { bytes := data }
      simp only [Except.map]
      cases hrules : (readRules x recover : Reader ReadError _) data with
      | ok q =>
        obtain ⟨demands, heq, -⟩ := hok q.1 q.2 hrules
        rw [heq]
        rfl
      | error err =>
        obtain ⟨m, heq⟩ := herr err hrules
        rw [heq]
        cases err <;> rfl

section

variable (x : Externals Matcher AdGuardMatcher) (recover : Bool) (inflate : Bytes → Except ReadError (Bytes × ReadError))

variable {ruleSet : PlainRuleSetCompat Matcher AdGuardMatcher}

end

/-! ## A file with a range in the wrong order -/

/-- A stream that is not compressed and ends well. -/
def stored : Bytes → Except ReadError (Bytes × ReadError) := fun data => .ok (data, .eof)

end Singlink.Srs
