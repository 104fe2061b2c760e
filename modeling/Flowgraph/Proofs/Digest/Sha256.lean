import Flowgraph.Digest.Sha256
import Mathlib.Algebra.Group.Nat.Defs
/-!
# Digests in hexadecimal

Eight digits give back the word that they spell, and the digits of all words give back the digest. So
two rows of bytes are digested to the same text only when their digests are the same.
-/
namespace Flowgraph.Sha256

/-- Two rows of bytes that only differ before they are digested. -/
structure Collide (a b : List UInt8) : Prop where
  differ : a ≠ b
  same : digest a = digest b

theorem digitChar_injective : ∀ m < 16, ∀ n < 16, Nat.digitChar m = Nat.digitChar n → m = n := by
  decide

theorem length_hexWord (w : UInt32) : (hexWord w).length = 8 := by
  simp [hexWord]

theorem eq_of_digits {k m n : Nat} (hm : m < 16 ^ k) (hn : n < 16 ^ k)
    (h : ∀ i < k, m / 16 ^ i % 16 = n / 16 ^ i % 16) : m = n := by
  induction k generalizing m n with
  | zero => omega
  | succ k ih =>
    have hhigh : m / 16 = n / 16 := by
      apply ih
      · rw [Nat.pow_succ] at hm
        omega
      · rw [Nat.pow_succ] at hn
        omega
      · intro i hi
        have hdigit := h (i + 1) (by omega)
        rwa [Nat.pow_succ', ← Nat.div_div_eq_div_mul, ← Nat.div_div_eq_div_mul] at hdigit
    have hlow : m % 16 = n % 16 := by simpa using h 0 (by omega)
    omega

theorem hexWord_injective {v w : UInt32} (h : hexWord v = hexWord w) : v = w := by
  apply UInt32.toNat_inj.mp
  apply eq_of_digits (k := 8) v.toNat_lt w.toNat_lt
  intro i hi
  have hdigit := congrArg (·[7 - i]?) h
  have hrange : (List.range 8)[7 - i]? = some (7 - i) := List.getElem?_range (by omega)
  simp only [hexWord, List.getElem?_map, hrange, Option.map_some, Option.some.injEq] at hdigit
  rw [show 7 - (7 - i) = i by omega] at hdigit
  exact digitChar_injective _ (Nat.mod_lt _ (by decide)) _ (Nat.mod_lt _ (by decide)) hdigit

theorem flatMap_hexWord_injective {vs ws : List UInt32}
    (h : vs.flatMap hexWord = ws.flatMap hexWord) : vs = ws := by
  induction vs generalizing ws with
  | nil =>
    cases ws with
    | nil => rfl
    | cons w ws => simp [hexWord] at h
  | cons v vs ih =>
    cases ws with
    | nil => simp [hexWord] at h
    | cons w ws =>
      rw [List.flatMap_cons, List.flatMap_cons] at h
      obtain ⟨hword, hwords⟩ := List.append_inj h (by rw [length_hexWord, length_hexWord])
      rw [hexWord_injective hword, ih hwords]

theorem digest_of_hexDigest {a b : List UInt8} (h : hexDigest a = hexDigest b) :
    digest a = digest b :=
  flatMap_hexWord_injective (String.ofList_injective h)

end Flowgraph.Sha256
