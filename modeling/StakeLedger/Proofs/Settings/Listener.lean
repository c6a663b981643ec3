import StakeLedger.Proofs.Schema.Scalar
import StakeLedger.Proofs.Settings.Checks

/-!
# Listeners of settings

An idle time that is not negative has an integer part, which is the number of seconds that the
server is told, unless it is endless or no number.

Main results:

- Theorem {lit}`Binary64.truncate?_eq_floor`: the integer part of a double that is not negative.
- Theorem {lit}`Settings.listener_of_value`, {lit}`Settings.listener_of_no_value`: which settings
  have a listener.
-/

namespace StakeLedger

namespace Binary64

/-- The two naturals of a magnitude are divided to its integer part. -/
theorem floor_magnitude (m : Nat) (e : Int) :
    ⌊(m * 2 ^ e : ℚ)⌋ = ((magnitude m e).1 / (magnitude m e).2 : Nat) := by
  have hdiv := Rat.floor_intCast_div_natCast ((magnitude m e).1 : Int) (magnitude m e).2
  rw [← (magnitude_eq m e).1, Int.natCast_ediv, ← hdiv, Int.cast_natCast]

/-- The integer part of a double that is not negative. -/
theorem truncate?_eq_floor {x : Binary64} {q : ℚ} (hvalue : x.value? = some q)
    (hsign : x.isNegative = false) : 0 ≤ q ∧ x.truncate? = some ⌊q⌋ := by
  cases x with
  | finite negative m e h =>
      have hwhole := floor_magnitude m e
      cases negative with
      | false =>
          obtain rfl : (m * 2 ^ e : ℚ) = q := by simpa [value?] using hvalue
          refine ⟨by positivity, ?_⟩
          rw [hwhole]
          rfl
      | true =>
          -- Only a zero has the sign of a negative number without being one.
          obtain rfl : m = 0 := by simpa [isNegative] using hsign
          obtain rfl : (0 : ℚ) = q := by simpa [value?] using hvalue
          rw [Nat.cast_zero, zero_mul, Int.floor_zero] at hwhole
          simp only [truncate?, if_true, ← hwhole, Int.floor_zero]
          exact ⟨le_rfl, rfl⟩
  | infinite negative => cases hvalue
  | nan => cases hvalue

end Binary64

namespace Settings

variable {s : Settings}

/-- Settings with an idle time that is a number have a listener. -/
theorem listener_of_value {q : ℚ} (hvalue : s.idleTimeout.value? = some q)
    (hsign : s.idleTimeout.isNegative = false) (level : Journal.Level) :
    0 ≤ q ∧ s.listener level = .ok ⟨s.host, s.port, ⌊q⌋, level⟩ := by
  rcases Binary64.truncate?_eq_floor hvalue hsign with ⟨hq, htruncate⟩
  refine ⟨hq, ?_⟩
  cases htime : s.idleTimeout with
  | finite negative m e h =>
      rw [htime] at htruncate
      simp only [listener, htime, wholeSeconds, htruncate]
      rfl
  | infinite negative =>
      rw [htime] at hvalue
      cases hvalue
  | nan =>
      rw [htime] at hvalue
      cases hvalue

/-- Settings with an idle time that is no number have none. -/
theorem listener_of_no_value (hvalue : s.idleTimeout.value? = none) (level : Journal.Level) :
    ∃ fault, s.listener level = .error fault := by
  cases htime : s.idleTimeout with
  | finite negative m e h =>
      rw [htime] at hvalue
      cases hvalue
  | infinite negative => exact ⟨.endlessTime, by rw [listener, htime]; rfl⟩
  | nan => exact ⟨.noTime, by rw [listener, htime]; rfl⟩

/-- A listener has the host and the port of the settings. -/
theorem host_port_of_listener {level : Journal.Level} {found : Listener}
    (h : s.listener level = .ok found) : found.host = s.host ∧ found.port = s.port := by
  rw [listener] at h
  cases hseconds : wholeSeconds s.idleTimeout with
  | error fault =>
      rw [hseconds] at h
      cases h
  | ok seconds =>
      rw [hseconds] at h
      cases h
      exact ⟨rfl, rfl⟩

end Settings

end StakeLedger
