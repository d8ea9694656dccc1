import RenderMaterials.Proofs.Reflection.Sharing

/-!
# Reflection cache — faithful entries

Entries are kept by hash, so a cache can say of some code what a reflector found in other code.  It
is `Faithful` to a reflector, for the code of some set, when it says of each what the reflector
says.

* `Faithful.result`: a faithful cache answers as the reflector does.
* `Faithful.getOrReflect`, `Faithful.invalidate`: it stays faithful while hashes tell the code of
  the set apart (`ToldApart`).
-/

namespace RenderMaterials

/-- Code of a set with one hash has the same bindings. -/
def ToldApart (reflect : Reflector) (codes : Bytecode → Prop) : Prop :=
  ∀ a b, codes a → codes b → contentHash a.bytes = contentHash b.bytes → reflect a = reflect b

namespace ReflectionCache

variable {c c' : ReflectionCache} {reflect : Reflector} {codes : Bytecode → Prop} {code : Bytecode}

/-- What a cache says of the code of a set is what the reflector says. -/
def Faithful (reflect : Reflector) (codes : Bytecode → Prop) (c : ReflectionCache) : Prop :=
  ∀ code bs, codes code → c.entries.value? (contentHash code.bytes) = some bs →
    reflect code = .ok bs

theorem faithful_of_entries_eq_nil (h : c.entries = []) : Faithful reflect codes c := by
  intro code bs _ hv
  rw [h] at hv
  cases hv

/-- Entries that go do no harm. -/
theorem Faithful.of_entries (h : Faithful reflect codes c)
    (hc : ∀ k bs, c'.entries.value? k = some bs → c.entries.value? k = some bs) :
    Faithful reflect codes c' :=
  fun code bs hcode hv => h code bs hcode (hc _ bs hv)

theorem Faithful.detach (h : Faithful reflect codes c) (i : String) (k : UInt64) :
    Faithful reflect codes (c.detach i k).2 := by
  refine h.of_entries fun k' bs hv => ?_
  rw [entries_detach] at hv
  split at hv
  · cases hv
  · exact hv

theorem Faithful.bind (h : Faithful reflect codes c) (i : String) (k : UInt64) :
    Faithful reflect codes (c.bind i k) := by
  refine h.of_entries fun k' bs hv => ?_
  rw [entries_bind] at hv
  split at hv
  · cases hv
  · exact hv

/-- A faithful cache answers as the reflector does. -/
theorem Faithful.result (h : Faithful reflect codes c) (hcode : codes code) (i : String) :
    (c.getOrReflect reflect code i).result = (reflect code).mapError (.reflection i) := by
  cases hv : c.entries.value? (contentHash code.bytes) with
  | some bs =>
      rw [getOrReflect_hit hv, h code bs hcode hv]
      rfl
  | none =>
      cases hr : reflect code with
      | error reason => rw [getOrReflect_failed hv hr]; rfl
      | ok bs => rw [getOrReflect_found hv hr]; rfl

theorem Faithful.getOrReflect (h : Faithful reflect codes c) (ha : ToldApart reflect codes)
    (hcode : codes code) (i : String) :
    Faithful reflect codes (c.getOrReflect reflect code i).cache := by
  cases hv : c.entries.value? (contentHash code.bytes) with
  | some bs =>
      rw [getOrReflect_hit hv]
      dsimp only
      split
      · exact h
      · exact h.bind i (contentHash code.bytes)
  | none =>
      cases hr : reflect code with
      | error reason => rw [getOrReflect_failed hv hr]; exact h
      | ok bs =>
          rw [getOrReflect_found hv hr]
          -- the new entry serves all code of its hash
          refine Faithful.bind (fun code' bs' hcode' hv' => ?_) i _
          rw [Table.value?_assign] at hv'
          split at hv'
          · next hk => rw [← ha code code' hcode hcode' hk, hr, Option.some.inj hv']
          · exact h code' bs' hcode' hv'

theorem Faithful.invalidate (h : Faithful reflect codes c) (i : String) :
    Faithful reflect codes (c.invalidate i).2 := by
  cases hv : c.hashByIdentity.value? i with
  | none => rw [invalidate_unknown hv]; exact h
  | some k =>
      have h' : Faithful reflect codes { c with hashByIdentity := c.hashByIdentity.without i } := h
      rw [invalidate_known hv]
      exact h'.detach i k

end ReflectionCache

end RenderMaterials
