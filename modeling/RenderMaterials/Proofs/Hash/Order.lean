import Mathlib.Data.Fintype.Prod
import Mathlib.Data.Nat.Bitwise
import Mathlib.Data.Nat.ModEq
import RenderMaterials.Hash.Key

/-!
# Cache keys — the order of two values

Mixing two values into a seed in one order and in the other mostly gives two keys.  A value is mixed
in from the low bits upwards, while the seed is also added shifted down by two, so that each bit of
a key depends on a bit of the seed two places up.  The low bits of the keys therefore fix more bits
of the values than there are bits of the keys.

* `Hash.AgreeBelow`: words with the same low bits.
* `Hash.combine_agreeBelow_iff`: a value is mixed in from the low bits upwards.
* `Hash.agreeBelow_of_combine`: the bit of a seed two places up shows in the key.
* `Hash.swapped_injective`: the low bits of a value, and of the difference that the order makes,
  tell the value.
* `Hash.order_seen_but_for_three`: so the order of two values shows in the key for all but three
  values beside a given one, and whenever the two leave the same remainder modulo four.
* `Hash.orders_meet`: two values whose order does not show.
-/

namespace RenderMaterials.Hash

/-! ### Low bits -/

/-- Two words have the same bits below a position. -/
def AgreeBelow (k : ℕ) (x y : UInt64) : Prop := x.toNat ≡ y.toNat [MOD 2 ^ k]

variable {k : ℕ} {x y x' y' : UInt64}

/-- Words whose bits agree below the 64th are equal. -/
theorem eq_of_agreeBelow (h : AgreeBelow 64 x y) : x = y :=
  UInt64.toNat_inj.1 (h.eq_of_lt_of_lt x.toNat_lt y.toNat_lt)

theorem agreeBelow_xor_left_iff (c : UInt64) :
    AgreeBelow k (c ^^^ x) (c ^^^ y) ↔ AgreeBelow k x y := by
  simp only [AgreeBelow, Nat.ModEq, UInt64.toNat_xor, Nat.xor_mod_two_pow]
  exact Nat.xor_right_inj

theorem AgreeBelow.xor_left_cancel (h : AgreeBelow k (x ^^^ x') (y ^^^ y'))
    (hx : AgreeBelow k x y) : AgreeBelow k x' y' := by
  simp only [AgreeBelow, Nat.ModEq, UInt64.toNat_xor, Nat.xor_mod_two_pow] at h hx ⊢
  rw [hx] at h
  exact Nat.xor_right_inj.1 h

/-- What is added says nothing about bits that the sums have. -/
theorem toNat_add_modEq (hk : k ≤ 64) (x y : UInt64) :
    (x + y).toNat ≡ x.toNat + y.toNat [MOD 2 ^ k] := by
  rw [UInt64.toNat_add]
  exact (Nat.mod_modEq _ _).of_dvd (pow_dvd_pow 2 hk)

theorem agreeBelow_add_right_iff (hk : k ≤ 64) (c : UInt64) :
    AgreeBelow k (x + c) (y + c) ↔ AgreeBelow k x y := by
  have hsum : AgreeBelow k (x + c) (y + c) ↔
      x.toNat + c.toNat ≡ y.toNat + c.toNat [MOD 2 ^ k] :=
    ⟨fun h => (toNat_add_modEq hk x c).symm.trans (h.trans (toNat_add_modEq hk y c)),
      fun h => (toNat_add_modEq hk x c).trans (h.trans (toNat_add_modEq hk y c).symm)⟩
  rw [hsum]
  exact ⟨Nat.ModEq.add_right_cancel' _, fun h => h.add_right _⟩

theorem AgreeBelow.add_left_cancel (hk : k ≤ 64) (h : AgreeBelow k (x + x') (y + y'))
    (hx : AgreeBelow k x y) : AgreeBelow k x' y' := by
  refine Nat.ModEq.add_left_cancel hx ?_
  exact (toNat_add_modEq hk x x').symm.trans (h.trans (toNat_add_modEq hk y y'))

theorem AgreeBelow.shiftLeft (hk : k ≤ 64) (h : AgreeBelow k x y) :
    AgreeBelow k (x <<< 6) (y <<< 6) := by
  have hshift : ∀ z : UInt64, (z <<< 6).toNat ≡ z.toNat * 2 ^ 6 [MOD 2 ^ k] := by
    intro z
    rw [UInt64.toNat_shiftLeft, Nat.shiftLeft_eq]
    exact (Nat.mod_modEq _ _).of_dvd (pow_dvd_pow 2 hk)
  exact (hshift x).trans ((h.mul_right _).trans (hshift y).symm)

/-- Bits that agree after a shift down by two agree two places up. -/
theorem agreeBelow_of_shiftRight (hlow : x.toNat % 4 = y.toNat % 4)
    (h : AgreeBelow k (x >>> 2) (y >>> 2)) : AgreeBelow (k + 2) x y := by
  have hshift : ∀ z : UInt64, (z >>> 2).toNat = z.toNat / 4 := by
    intro z
    rw [UInt64.toNat_shiftRight, Nat.shiftRight_eq_div_pow]
    rfl
  rw [AgreeBelow, hshift, hshift] at h
  have hup : 4 * (x.toNat / 4) ≡ 4 * (y.toNat / 4) [MOD 4 * 2 ^ k] := h.mul_left' 4
  have hpow : 2 ^ (k + 2) = 4 * 2 ^ k := (Nat.pow_add 2 k 2).trans (Nat.mul_comm _ _)
  rw [AgreeBelow, hpow, ← Nat.div_add_mod x.toNat 4, ← Nat.div_add_mod y.toNat 4, hlow]
  exact hup.add_right _

/-! ### Mixing -/

/-- The low bits of a key tell those of the value that was mixed in last. -/
theorem combine_agreeBelow_iff (hk : k ≤ 64) (s v w : UInt64) :
    AgreeBelow k (combine s v) (combine s w) ↔ AgreeBelow k v w := by
  simp only [combine, agreeBelow_xor_left_iff, agreeBelow_add_right_iff hk]

/-- When seeds agree below a position, and so do the keys with one value, the seeds agree two bits
further up. -/
theorem agreeBelow_of_combine (hk : k ≤ 64) (hk2 : 2 ≤ k) {s t v : UInt64}
    (hseed : AgreeBelow k s t) (h : AgreeBelow k (combine s v) (combine t v)) :
    AgreeBelow (k + 2) s t := by
  have hmixed : AgreeBelow k (v + goldenRatio + s <<< 6 + s >>> 2)
      (v + goldenRatio + t <<< 6 + t >>> 2) := AgreeBelow.xor_left_cancel h hseed
  have hdown : AgreeBelow k (s >>> 2) (t >>> 2) := by
    refine hmixed.add_left_cancel hk ?_
    rw [UInt64.add_comm _ (s <<< 6), UInt64.add_comm _ (t <<< 6), agreeBelow_add_right_iff hk]
    exact hseed.shiftLeft hk
  exact agreeBelow_of_shiftRight (hseed.of_dvd (pow_dvd_pow 2 hk2)) hdown

/-! ### Two orders -/

/-- The difference between the keys of two values in one order and in the other. -/
def swapped (s a b : UInt64) : UInt64 := combine (combine s a) b ^^^ combine (combine s b) a

theorem swapped_eq_zero_iff (s a b : UInt64) :
    swapped s a b = 0 ↔ combine (combine s a) b = combine (combine s b) a :=
  UInt64.xor_eq_zero_iff

/-- When two values agree below a position, and so do the differences that their order makes, the
values agree two bits further up. -/
theorem agreeBelow_of_swapped (hk : k + 2 ≤ 64) (hk2 : 2 ≤ k) {s a b c : UInt64}
    (hvalue : AgreeBelow k b c) (h : AgreeBelow k (swapped s a b) (swapped s a c)) :
    AgreeBelow (k + 2) b c := by
  have hk64 : k ≤ 64 := by omega
  have hlast : AgreeBelow k (combine (combine s b) a) (combine (combine s c) a) :=
    AgreeBelow.xor_left_cancel h ((combine_agreeBelow_iff hk64 (combine s a) b c).2 hvalue)
  have hseed : AgreeBelow k (combine s b) (combine s c) :=
    (combine_agreeBelow_iff hk64 s b c).2 hvalue
  exact (combine_agreeBelow_iff hk s b c).1 (agreeBelow_of_combine hk64 hk2 hseed hlast)

/-- The two low bits of a value and the 62 low bits of the difference that its order makes tell the
value. -/
theorem swapped_injective {s a b c : UInt64} (hlow : AgreeBelow 2 b c)
    (h : AgreeBelow 62 (swapped s a b) (swapped s a c)) : b = c := by
  have hstep : ∀ n, 2 * n + 2 ≤ 64 → AgreeBelow (2 * n + 2) b c := by
    intro n
    induction n with
    | zero => exact fun _ => hlow
    | succ n ih =>
        intro hn
        have hbelow : AgreeBelow (2 * n + 2) (swapped s a b) (swapped s a c) :=
          h.of_dvd (pow_dvd_pow 2 (by omega))
        exact agreeBelow_of_swapped (by omega) (by omega) (ih (by omega)) hbelow
  exact eq_of_agreeBelow (hstep 31 (by decide))

/-- The two low bits of a value, and the 62 low bits of the difference that its order makes. -/
def trace (s a b : UInt64) : Fin (2 ^ 2) × Fin (2 ^ 62) :=
  (.ofNat (2 ^ 2) b.toNat, .ofNat (2 ^ 62) (swapped s a b).toNat)

/-- There are as many such pairs of bits as values, so that each is that of one value. -/
theorem trace_bijective (s a : UInt64) : Function.Bijective (trace s a ∘ UInt64.ofFin) := by
  refine (Fintype.bijective_iff_injective_and_card _).2 ⟨fun b c h => ?_, ?_⟩
  · obtain ⟨hlow, hdifference⟩ := Prod.ext_iff.1 h
    have heq := swapped_injective (Fin.ext_iff.1 hlow) (Fin.ext_iff.1 hdifference)
    exact congrArg UInt64.toFin heq
  · rw [Fintype.card_prod, Fintype.card_fin, Fintype.card_fin, Fintype.card_fin]
    rfl

/-- Two values that meet a given one, and leave the same remainder, are one value. -/
theorem eq_of_meet {s a b c : UInt64} (hlow : b.toNat % 4 = c.toNat % 4)
    (hb : combine (combine s a) b = combine (combine s b) a)
    (hc : combine (combine s a) c = combine (combine s c) a) : b = c := by
  refine swapped_injective (s := s) (a := a) hlow ?_
  rw [(swapped_eq_zero_iff s a b).2 hb, (swapped_eq_zero_iff s a c).2 hc]
  exact Nat.ModEq.refl _

/-- The order of two different values shows in the key whenever they leave the same remainder modulo
four, and for all but three values beside a given one.  With a seed and a value, what the order
changes below the 62nd bit of the key belongs to one value of each remainder. -/
theorem order_seen_but_for_three (s a : UInt64) :
    (∀ b, a ≠ b → a.toNat % 4 = b.toNat % 4 →
      combine (combine s a) b ≠ combine (combine s b) a) ∧
    (∀ bs : Finset UInt64, (∀ b ∈ bs, a ≠ b ∧
      combine (combine s a) b = combine (combine s b) a) → bs.card ≤ 3) ∧
    ∀ r < 4, ∀ d < 2 ^ 62, ∃! b : UInt64, b.toNat % 4 = r ∧
      (combine (combine s a) b ^^^ combine (combine s b) a).toNat % 2 ^ 62 = d := by
  have hseen : ∀ b, a ≠ b → a.toNat % 4 = b.toNat % 4 →
      combine (combine s a) b ≠ combine (combine s b) a :=
    fun b hne hlow hb => hne (eq_of_meet hlow rfl hb)
  have hsmall : ∀ b : UInt64, b.toNat % 4 ∈ Finset.range 4 :=
    fun b => Finset.mem_range.2 (Nat.mod_lt _ (by decide))
  refine ⟨hseen, fun bs hbs => ?_, fun r hr d hd => ?_⟩
  · -- the values that meet it leave different remainders, none of them its own
    have hother : ∀ b ∈ bs, b.toNat % 4 ∈ (Finset.range 4).erase (a.toNat % 4) := fun b hb =>
      Finset.mem_erase.2 ⟨fun hlow => hseen b (hbs b hb).1 hlow.symm (hbs b hb).2, hsmall b⟩
    have hcard := Finset.card_le_card_of_injOn _ hother fun b hb c hc hlow =>
      eq_of_meet hlow (hbs b hb).2 (hbs c hc).2
    rwa [Finset.card_erase_of_mem (hsmall a), Finset.card_range] at hcard
  · obtain ⟨b, hb⟩ := (trace_bijective s a).2 (⟨r, hr⟩, ⟨d, hd⟩)
    obtain ⟨hlow, hdifference⟩ := Prod.ext_iff.1 hb
    refine ⟨.ofFin b, ⟨Fin.ext_iff.1 hlow, Fin.ext_iff.1 hdifference⟩, fun c hc => ?_⟩
    exact swapped_injective (hc.1.trans (Fin.ext_iff.1 hlow).symm)
      (hc.2.trans (Fin.ext_iff.1 hdifference).symm)

/-- One and five leave the same remainder. -/
theorem one_five_seen : combine (combine 0 1) 5 ≠ combine (combine 0 5) 1 :=
  (order_seen_but_for_three 0 1).1 5 (by decide) (by decide)

/-- One meets a value of another remainder. -/
theorem orders_meet : ¬ ∀ s a b : UInt64, a ≠ b →
    combine (combine s a) b ≠ combine (combine s b) a := by
  intro hall
  exact hall 0 1 0x13CB128588E7974A (by decide) (by decide)

end RenderMaterials.Hash
