import Mathlib.Algebra.Group.Nat.Defs
import LivelierBridge.Js.String
import LivelierBridge.Framework.OrderedMap

namespace LivelierBridge.Nostr

open Framework Js

structure FailedProfileFetch where
  attempts : Nat
  nextRetryAt : Nat
  deriving DecidableEq

def PROFILE_RETRY_BASE_MS : Nat := 30000

def PROFILE_RETRY_MAX_MS : Nat := 5 * 60000

def PROFILE_RETRY_MAX_ATTEMPTS : Nat := 6

def PROFILE_RETRY_BUCKET_MS : Nat := 30000

def hasExhaustedProfileRetries (failure : Option FailedProfileFetch) : Bool :=
  failure.any fun f => PROFILE_RETRY_MAX_ATTEMPTS ≤ f.attempts

/-- `Math.ceil(t / bucket) * bucket` -/
def ceilTo (bucket t : Nat) : Nat := (t + (bucket - 1)) / bucket * bucket

/-- The failure after one more empty fetch. -/
def nextFailure (previous : Option FailedProfileFetch) (now : Nat) : FailedProfileFetch :=
  let attempts := (previous.map FailedProfileFetch.attempts).getD 0 + 1
  let delay := min (PROFILE_RETRY_BASE_MS * 2 ^ (attempts - 1)) PROFILE_RETRY_MAX_MS
  ⟨attempts, ceilTo PROFILE_RETRY_BUCKET_MS (now + delay)⟩

def recordFailedProfileFetch (failures : OrderedMap JsString FailedProfileFetch) (pubkey : JsString)
    (now : Nat) : OrderedMap JsString FailedProfileFetch :=
  failures.set pubkey (nextFailure (failures.get? pubkey) now)

theorem le_ceilTo {bucket : Nat} (h : 0 < bucket) (t : Nat) : t ≤ ceilTo bucket t := by
  have hdiv := Nat.div_add_mod (t + (bucket - 1)) bucket
  have hmod := Nat.mod_lt (t + (bucket - 1)) h
  rw [Nat.mul_comm] at hdiv
  unfold ceilTo
  omega

theorem ceilTo_lt {bucket : Nat} (h : 0 < bucket) (t : Nat) : ceilTo bucket t < t + bucket := by
  have hdiv := Nat.div_mul_le_self (t + (bucket - 1)) bucket
  unfold ceilTo
  omega

/-- A failure defers the pubkey for half a minute at least and six at most. -/
theorem nextFailure_nextRetryAt (previous : Option FailedProfileFetch) (now : Nat) :
    now + 30000 ≤ (nextFailure previous now).nextRetryAt ∧
      (nextFailure previous now).nextRetryAt < now + 330000 := by
  obtain ⟨n, hn⟩ : ∃ n, (previous.map FailedProfileFetch.attempts).getD 0 = n := ⟨_, rfl⟩
  obtain ⟨delay, hdelay⟩ : ∃ d, min (30000 * 2 ^ n) (5 * 60000) = d := ⟨_, rfl⟩
  have hbase : 30000 ≤ 30000 * 2 ^ n := Nat.le_mul_of_pos_right _ (Nat.two_pow_pos n)
  have hmin : 30000 ≤ delay := hdelay ▸ Nat.le_min.mpr ⟨hbase, by decide⟩
  have hmax : delay ≤ 5 * 60000 := hdelay ▸ Nat.min_le_right _ _
  have hle : now + delay ≤ ceilTo 30000 (now + delay) := le_ceilTo (by decide) _
  have hlt : ceilTo 30000 (now + delay) < now + delay + 30000 := ceilTo_lt (by decide) _
  simp only [nextFailure, hn, PROFILE_RETRY_BASE_MS, PROFILE_RETRY_MAX_MS, PROFILE_RETRY_BUCKET_MS,
    Nat.add_sub_cancel, hdelay]
  omega

end LivelierBridge.Nostr
