import RenderMaterials.Layout.Spec
import RenderMaterials.Proofs.Result
import Mathlib.Data.List.Nodup

/-!
# Merging of bindings

A builder takes bindings one by one, and a binding without a slot may get one from a later binding
of its name.  What comes out is nevertheless a join by name of all bindings that came in: it depends
on which they are, and neither on their order nor on how they were cut into batches.

* `Compatible`: bindings of one name have one kind, and no two of them different slots.
* `Joined`: what a list of bindings says, name by name.  `Joined.unique`: it says one thing.
* `insert_cases`: what one more binding does to the bindings of a builder.
* `Joined.insert`, `Joined.exists_insert`: it joins the new binding, and succeeds if that is
  compatible with all that came before.
* `Joined.addEach`: so a run of batches joins all that it was given, or ends in a conflict.
* `united_of_compatible`: all orders and cuts of compatible bindings give one layout, and all orders
  and cuts of other bindings end in a conflict.
-/

namespace RenderMaterials

/-! ### What bindings say together -/

/-- Bindings of one name are of one kind, and no two of them have different slots. -/
def Compatible (bs : List Binding) : Prop :=
  ∀ b ∈ bs, ∀ c ∈ bs, b.name = c.name → b.kind = c.kind ∧ ∀ m ∈ b.slot, ∀ n ∈ c.slot, m = n

instance (bs : List Binding) : Decidable (Compatible bs) :=
  inferInstanceAs (Decidable (∀ b ∈ bs, ∀ c ∈ bs, b.name = c.name →
    b.kind = c.kind ∧ ∀ m ∈ b.slot, ∀ n ∈ c.slot, m = n))

/-- A binding says of its name what the bindings of a list say of it: their kind, all of their
stages, and the slot that some of them have. -/
structure Binding.Unites (j : Binding) (bs : List Binding) : Prop where
  named  : ∃ b ∈ bs, b.name = j.name
  kind   : ∀ b ∈ bs, b.name = j.name → b.kind = j.kind
  stages : ∀ s, j.stages.contains s = true ↔
    ∃ b ∈ bs, b.name = j.name ∧ b.stages.contains s = true
  slot   : ∀ b ∈ bs, b.name = j.name → ∀ n ∈ b.slot, n ∈ j.slot

/-- One binding for each name in a list, in the order of names, which says what the list says. -/
structure United (bs js : List Binding) : Prop where
  sorted : js.Pairwise (·.name < ·.name)
  every  : ∀ b ∈ bs, ∃ j ∈ js, j.name = b.name
  unites : ∀ j ∈ js, j.Unites bs

/-- United bindings that have a slot only where the list gives one. -/
structure Joined (bs js : List Binding) : Prop extends United bs js where
  given : ∀ j ∈ js, ∀ n ∈ j.slot, ∃ b ∈ bs, b.name = j.name ∧ n ∈ b.slot

variable {bs bs' js js' : List Binding} {b c j k : Binding}

theorem Compatible.mono (h : bs ⊆ bs') (hc : Compatible bs') : Compatible bs :=
  fun b hb c hc' => hc b (h hb) c (h hc')

namespace Joined

theorem empty : Joined [] [] := ⟨⟨.nil, by simp, by simp⟩, by simp⟩

/-- What is joined was compatible. -/
theorem compatible (h : Joined bs js) : Compatible bs := by
  intro b hb c hc e
  obtain ⟨j, hj, hn⟩ := h.every b hb
  have hu := h.unites j hj
  have hc' : c.name = j.name := by rw [hn, e]
  refine ⟨by rw [hu.kind b hb hn.symm, hu.kind c hc hc'], fun m hm n hn' => ?_⟩
  have hm' := hu.slot b hb hn.symm m hm
  exact Option.mem_unique hm' (hu.slot c hc hc' n hn')

/-- Only the members of the list count. -/
theorem congr (hm : ∀ b, b ∈ bs ↔ b ∈ bs') (h : Joined bs js) : Joined bs' js := by
  refine ⟨⟨h.sorted, fun b hb => h.every b ((hm b).2 hb), fun j hj => ?_⟩, fun j hj n hn => ?_⟩
  · obtain ⟨⟨b, hb, e⟩, hkind, hstages, hslot⟩ := h.unites j hj
    refine ⟨⟨b, (hm b).1 hb, e⟩, fun b hb => hkind b ((hm b).2 hb), fun s => ?_,
      fun b hb => hslot b ((hm b).2 hb)⟩
    simp only [hstages s, hm]
  · obtain ⟨b, hb, e⟩ := h.given j hj n hn
    exact ⟨b, (hm b).1 hb, e⟩

theorem mem_of_mem (h : Joined bs js) (h' : Joined bs js') (hj : j ∈ js) : j ∈ js' := by
  obtain ⟨b, hb, e⟩ := (h.unites j hj).named
  obtain ⟨k, hk, e'⟩ := h'.every b hb
  have hname : j.name = k.name := by rw [e', e]
  have hu := h.unites j hj
  have hu' := h'.unites k hk
  have hkind : j.kind = k.kind := by rw [← hu.kind b hb e, hu'.kind b hb e'.symm]
  have hstages : j.stages = k.stages := StageSet.ext_contains fun s => by
    rw [Bool.eq_iff_iff, hu.stages, hu'.stages, hname]
  have hslot : j.slot = k.slot := Option.ext fun n => by
    constructor
    · intro hn
      obtain ⟨c, hc, ec, hn⟩ := h.given j hj n hn
      exact hu'.slot c hc (ec.trans hname) n hn
    · intro hn
      obtain ⟨c, hc, ec, hn⟩ := h'.given k hk n hn
      exact hu.slot c hc (ec.trans hname.symm) n hn
  have : j = k := by
    cases j
    cases k
    simp_all
  exact this ▸ hk

/-- A list of bindings is joined in one way. -/
theorem unique (h : Joined bs js) (h' : Joined bs js') : js = js' := by
  have hnodup : ∀ {ks : List Binding}, ks.Pairwise (·.name < ·.name) → ks.Nodup := fun hs =>
    hs.imp fun {a b} hlt (e : a = b) => String.lt_irrefl b.name (e ▸ hlt)
  have hp : js.Perm js' := (List.perm_ext_iff_of_nodup (hnodup h.sorted) (hnodup h'.sorted)).2
    fun j => ⟨h.mem_of_mem h', h'.mem_of_mem h⟩
  exact hp.eq_of_pairwise (fun j k _ _ hlt hgt => absurd hgt (String.lt_asymm hlt)) h.sorted
    h'.sorted

end Joined

/-! ### One more binding -/

theorem slotsAgree_iff {s t : Option Nat} : slotsAgree s t = true ↔ ∀ m ∈ s, ∀ n ∈ t, m = n := by
  cases s <;> cases t <;> simp [slotsAgree]

namespace Binding

theorem merge_eq_ok : j.merge b = .ok k ↔ j.kind = b.kind ∧ (∀ m ∈ j.slot, ∀ n ∈ b.slot, m = n) ∧
    k = { j with stages := j.stages.union b.stages, slot := j.slot <|> b.slot } := by
  unfold merge
  split
  · next h =>
      rw [Bool.and_eq_true, decide_eq_true_eq, slotsAgree_iff] at h
      exact ⟨fun hk => ⟨h.1, h.2, (Except.ok.inj hk).symm⟩, fun hk => hk.2.2 ▸ rfl⟩
  · next h =>
      rw [Bool.and_eq_true, decide_eq_true_eq, slotsAgree_iff] at h
      refine iff_of_false (by simp) fun hk => h ⟨hk.1, hk.2.1⟩

theorem merge_eq_error {e : MaterialError} (h : j.merge b = .error e) :
    e = .duplicateBinding b.name j.display b.display := by
  unfold merge at h
  split at h
  · cases h
  · exact (Except.error.inj h).symm

end Binding

namespace LayoutBuilder

/-- A new binding goes to its place in the order of names, unless its name is there already: then
it is merged with the binding of its name. -/
theorem insert_cases (b : Binding) (hs : js.Pairwise (·.name < ·.name)) :
    ∃ front back, (∀ x ∈ front, x.name < b.name) ∧ (∀ y ∈ back, b.name < y.name) ∧
      (js = front ++ back ∧ insert b js = .ok (front ++ b :: back) ∨
        ∃ j, js = front ++ j :: back ∧ j.name = b.name ∧
          insert b js = (j.merge b).map fun k => front ++ k :: back) := by
  induction js with
  | nil => exact ⟨[], [], by simp, by simp, .inl ⟨rfl, rfl⟩⟩
  | cons j js ih =>
      obtain ⟨hj, hs⟩ := List.pairwise_cons.1 hs
      unfold insert
      split
      · next hlt =>
          refine ⟨[], j :: js, by simp, fun y hy => ?_, .inl ⟨rfl, rfl⟩⟩
          rcases List.mem_cons.1 hy with rfl | hy
          · exact hlt
          · exact String.lt_trans hlt (hj y hy)
      · next hnlt =>
          split
          · next he =>
              refine ⟨[], js, by simp, fun y hy => he ▸ hj y hy, .inr ⟨j, rfl, he.symm, ?_⟩⟩
              cases j.merge b <;> rfl
          · next hne =>
              have hgt : j.name < b.name := by
                by_contra hnot
                exact hne (String.le_antisymm (String.not_lt.1 hnot) (String.not_lt.1 hnlt))
              obtain ⟨front, back, hfront, hback, hcase⟩ := ih hs
              refine ⟨j :: front, back, fun x hx => ?_, hback, ?_⟩
              · rcases List.mem_cons.1 hx with rfl | hx
                · exact hgt
                · exact hfront x hx
              · rcases hcase with ⟨rfl, hok⟩ | ⟨i, rfl, hi, hok⟩
                · exact .inl ⟨rfl, by rw [hok]; rfl⟩
                · refine .inr ⟨i, rfl, hi, ?_⟩
                  rw [hok]
                  cases i.merge b <;> rfl

/-- The only way to fail is a conflict. -/
theorem insert_eq_error {e : MaterialError} (h : insert b js = .error e) :
    ∃ old new, e = .duplicateBinding b.name old new := by
  induction js with
  | nil => cases h
  | cons j js ih =>
      unfold insert at h
      split at h
      · cases h
      · split at h
        · cases hm : j.merge b with
          | ok k => simp [hm] at h
          | error x =>
              rw [hm] at h
              exact ⟨_, _, (Except.error.inj h).symm.trans (Binding.merge_eq_error hm)⟩
        · cases hi : insert b js with
          | ok ks => simp [hi] at h
          | error x =>
              rw [hi] at h
              exact ih (hi.trans h)

theorem add_eq_error {l : LayoutBuilder} {e : MaterialError} (h : (l.add bs).2 = .error e) :
    ∃ name old new, e = .duplicateBinding name old new := by
  induction bs generalizing l with
  | nil => cases h
  | cons b bs ih =>
      unfold add at h
      split at h
      · exact ih h
      · next x hi =>
          obtain rfl := Except.error.inj h
          exact ⟨b.name, insert_eq_error hi⟩

end LayoutBuilder

namespace Binding.Unites

/-- Bindings of other names do not count. -/
theorem cons_of_ne (hne : b.name ≠ j.name) (h : j.Unites bs) : j.Unites (b :: bs) := by
  obtain ⟨⟨c, hc, e⟩, hkind, hstages, hslot⟩ := h
  refine ⟨⟨c, .tail b hc, e⟩, ?_, fun s => ?_, ?_⟩
  · simpa [hne] using hkind
  · simpa [hne] using hstages s
  · simpa [hne] using hslot

/-- A binding of a new name speaks for itself. -/
theorem of_new (hnew : ∀ c ∈ bs, c.name ≠ b.name) : b.Unites (b :: bs) := by
  have hself : ∀ c ∈ b :: bs, c.name = b.name → c = b := fun c hc e =>
    (List.mem_cons.1 hc).resolve_right fun hc => hnew c hc e
  refine ⟨⟨b, by simp, rfl⟩, fun c hc e => by rw [hself c hc e], fun s => ?_, fun c hc e => ?_⟩
  · constructor
    · exact fun hb => ⟨b, by simp, rfl, hb⟩
    · rintro ⟨c, hc, e, hs⟩
      rwa [← hself c hc e]
  · rw [hself c hc e]
    exact fun n hn => hn

theorem merge (h : j.Unites bs) (hname : j.name = b.name) (hm : j.merge b = .ok k) :
    k.Unites (b :: bs) := by
  obtain ⟨hkind, hslots, rfl⟩ := merge_eq_ok.1 hm
  refine ⟨⟨b, by simp, hname.symm⟩, fun c hc e => ?_, fun s => ?_, fun c hc e n hn => ?_⟩
  · rcases List.mem_cons.1 hc with rfl | hc
    · exact hkind.symm
    · exact h.kind c hc e
  · simp [h.stages s, hname, or_comm]
  · rcases List.mem_cons.1 hc with rfl | hc
    · cases hj : j.slot with
      | none => simpa [hj] using hn
      | some m => simpa [hj] using hslots m hj n hn
    · simp [Option.mem_def.1 (h.slot c hc e n hn)]

end Binding.Unites

namespace Joined

variable {front back : List Binding}

/-- What is joined stays so when what is said of one name, if anything, makes room for what is said
of it with one more binding of that name. -/
theorem place (old : List Binding) (h : Joined bs (front ++ (old ++ back)))
    (hfront : ∀ x ∈ front, x.name < b.name) (hold : ∀ x ∈ old, x.name = b.name)
    (hback : ∀ y ∈ back, b.name < y.name) (hname : k.name = b.name) (hu : k.Unites (b :: bs))
    (hgiven : ∀ n ∈ k.slot, ∃ c ∈ b :: bs, c.name = k.name ∧ n ∈ c.slot) :
    Joined (b :: bs) (front ++ k :: back) := by
  have hne : ∀ x ∈ front ++ back, b.name ≠ x.name := fun x hx e => by
    rcases List.mem_append.1 hx with hx | hx
    · exact String.lt_irrefl _ (e ▸ hfront x hx)
    · exact String.lt_irrefl _ (e ▸ hback x hx)
  have hmem : ∀ {x}, x ∈ front ++ k :: back ↔ x = k ∨ x ∈ front ++ back := by
    simp [or_left_comm]
  have hrest : ∀ {x}, x ∈ front ++ back → x ∈ front ++ (old ++ back) := by
    grind
  refine ⟨⟨?_, fun c hc => ?_, fun x hx => ?_⟩, fun x hx n hn => ?_⟩
  · obtain ⟨hf, hb, hfb⟩ := List.pairwise_append.1 h.sorted
    refine List.pairwise_append.2
      ⟨hf, List.pairwise_cons.2 ⟨fun y hy => ?_, ?_⟩, fun x hx y hy => ?_⟩
    · exact hname ▸ hback y hy
    · exact (List.pairwise_append.1 hb).2.1
    · rcases List.mem_cons.1 hy with rfl | hy
      · exact hname ▸ hfront x hx
      · exact hfb x hx y (List.mem_append_right old hy)
  · have hk : c.name = b.name → ∃ x ∈ front ++ k :: back, x.name = c.name := fun e =>
      ⟨k, by simp, hname.trans e.symm⟩
    rcases List.mem_cons.1 hc with rfl | hc
    · exact hk rfl
    · obtain ⟨x, hx, e⟩ := h.every c hc
      by_cases hxo : x ∈ old
      · exact hk (e ▸ hold x hxo)
      · exact ⟨x, by grind, e⟩
  · rcases hmem.1 hx with rfl | hx
    · exact hu
    · exact (h.unites x (hrest hx)).cons_of_ne (hne x hx)
  · rcases hmem.1 hx with rfl | hx
    · exact hgiven n hn
    · obtain ⟨c, hc, hg⟩ := h.given x (hrest hx) n hn
      exact ⟨c, .tail b hc, hg⟩

/-- What a builder makes of one more binding joins that binding too. -/
theorem insert (h : Joined bs js) (hi : LayoutBuilder.insert b js = .ok js') :
    Joined (b :: bs) js' := by
  obtain ⟨front, back, hfront, hback, ⟨rfl, hok⟩ | ⟨j, rfl, hname, hok⟩⟩ :=
    LayoutBuilder.insert_cases b h.sorted
  · obtain rfl := Except.ok.inj (hok.symm.trans hi)
    have hnew : ∀ c ∈ bs, c.name ≠ b.name := fun c hc e => by
      obtain ⟨x, hx, e'⟩ := h.every c hc
      rcases List.mem_append.1 hx with hx | hx
      · exact String.lt_irrefl _ ((e'.trans e) ▸ hfront x hx)
      · exact String.lt_irrefl _ ((e'.trans e) ▸ hback x hx)
    exact place [] h hfront (by simp) hback rfl (.of_new hnew) fun n hn => ⟨b, by simp, rfl, hn⟩
  · cases hm : j.merge b with
    | error e => simp [hok, hm, Except.map] at hi
    | ok k =>
        rw [hok, hm] at hi
        obtain rfl := Except.ok.inj hi
        have hj : j ∈ front ++ j :: back := by simp
        obtain ⟨-, -, hk⟩ := Binding.merge_eq_ok.1 hm
        have hkname : k.name = j.name := by rw [hk]
        refine place [j] h hfront (by simp [hname]) hback (hkname.trans hname)
          ((h.unites j hj).merge hname hm) fun n hn => ?_
        have hslot : n ∈ j.slot ∨ n ∈ b.slot := by
          rw [hk] at hn
          cases hs : j.slot with
          | none => exact .inr (by simpa [hs] using hn)
          | some m => exact .inl (by simpa [hs] using hn)
        rcases hslot with hn | hn
        · obtain ⟨c, hc, e, hn⟩ := h.given j hj n hn
          exact ⟨c, .tail b hc, e.trans hkname.symm, hn⟩
        · exact ⟨b, by simp, (hkname.trans hname).symm, hn⟩

/-- A binding that is compatible with all that came before can be put in. -/
theorem exists_insert (h : Joined bs js) (hc : Compatible (b :: bs)) :
    ∃ js', LayoutBuilder.insert b js = .ok js' := by
  obtain ⟨front, back, -, -, ⟨-, hok⟩ | ⟨j, rfl, hname, hok⟩⟩ :=
    LayoutBuilder.insert_cases b h.sorted
  · exact ⟨_, hok⟩
  · have hj : j ∈ front ++ j :: back := by simp
    obtain ⟨c, hc', e⟩ := (h.unites j hj).named
    have hkind : j.kind = b.kind := by
      rw [← (h.unites j hj).kind c hc' e]
      exact (hc c (.tail b hc') b (by simp) (e.trans hname)).1
    have hslots : ∀ m ∈ j.slot, ∀ n ∈ b.slot, m = n := fun m hm n hn => by
      obtain ⟨c, hc', e, hm⟩ := h.given j hj m hm
      exact (hc c (.tail b hc') b (by simp) (e.trans hname)).2 m hm n hn
    rw [hok, Binding.merge_eq_ok.2 ⟨hkind, hslots, rfl⟩]
    exact ⟨_, rfl⟩

end Joined

/-! ### Batches -/

namespace LayoutBuilder

/-- Adds batches in order, up to the first conflict. -/
def addEach (l : LayoutBuilder) : List (List Binding) → Except MaterialError LayoutBuilder
  | []            => .ok l
  | bs :: batches =>
    match l.add bs with
    | (l, .ok ())   => addEach l batches
    | (_, .error e) => .error e

end LayoutBuilder

namespace Joined

variable {seen : List Binding} {l : LayoutBuilder}

/-- A builder joins a batch to what it has seen, and fails only if that is impossible. -/
theorem add (h : Joined seen l.bindings) (bs : List Binding) :
    (∃ l', l.add bs = (l', .ok ()) ∧ Joined (bs.reverse ++ seen) l'.bindings) ∨
      (∃ l' name old new, l.add bs = (l', .error (.duplicateBinding name old new))) ∧
        ¬ Compatible (bs.reverse ++ seen) := by
  induction bs generalizing seen l with
  | nil => exact .inl ⟨l, rfl, h⟩
  | cons b bs ih =>
      simp only [LayoutBuilder.add, List.reverse_cons, List.append_assoc, List.singleton_append]
      cases hi : LayoutBuilder.insert b l.bindings with
      | ok js => exact ih (l := ⟨js⟩) (h.insert hi)
      | error e =>
          obtain ⟨old, new, rfl⟩ := LayoutBuilder.insert_eq_error hi
          refine .inr ⟨⟨l, b.name, old, new, rfl⟩, fun hc => ?_⟩
          obtain ⟨js, hok⟩ := h.exists_insert (hc.mono (List.subset_append_right _ _))
          rw [hi] at hok
          cases hok

theorem addEach (h : Joined seen l.bindings) (batches : List (List Binding)) :
    (∃ l', l.addEach batches = .ok l' ∧ Joined (batches.flatten.reverse ++ seen) l'.bindings) ∨
      (∃ name old new, l.addEach batches = .error (.duplicateBinding name old new)) ∧
        ¬ Compatible (batches.flatten.reverse ++ seen) := by
  induction batches generalizing seen l with
  | nil => exact .inl ⟨l, rfl, h⟩
  | cons bs batches ih =>
      simp only [LayoutBuilder.addEach, List.flatten_cons, List.reverse_append, List.append_assoc]
      rcases h.add bs with ⟨l', hok, h'⟩ | ⟨⟨l', name, old, new, herr⟩, hc⟩
      · rw [hok]
        exact ih h'
      · rw [herr]
        exact .inr ⟨⟨name, old, new, rfl⟩, fun hc' => hc (hc'.mono (List.subset_append_right _ _))⟩

end Joined

/-! ### The finished layout -/

namespace LayoutBuilder

/-- Numbering gives every binding a slot, and changes nothing else. -/
theorem assignSlots_related (next : Nat) (js : List Binding) :
    List.Forall₂ (fun j k => k = { j with slot := k.slot } ∧ (∀ n ∈ j.slot, n ∈ k.slot) ∧
      k.slot.isSome = true) js (assignSlots next js) := by
  induction js generalizing next with
  | nil => exact .nil
  | cons j js ih =>
      unfold assignSlots
      split
      · next n hn => exact .cons ⟨rfl, fun _ h => h, by simp [hn]⟩ (ih next)
      · next hn => exact .cons ⟨rfl, by simp [hn], rfl⟩ (ih (addWord32 next 1))

theorem assignSlots_names (next : Nat) (js : List Binding) :
    (assignSlots next js).map (·.name) = js.map (·.name) := by
  induction js generalizing next with
  | nil => rfl
  | cons j js ih =>
      unfold assignSlots
      split <;> simp [ih]

end LayoutBuilder

theorem Joined.build {l : LayoutBuilder} (h : Joined bs l.bindings) :
    United bs l.build.bindings ∧ ∀ k ∈ l.build.bindings, k.slot.isSome = true := by
  have hrel := LayoutBuilder.assignSlots_related (LayoutBuilder.firstFree l.bindings) l.bindings
  refine ⟨⟨?_, fun b hb => ?_, fun k hk => ?_⟩, fun k hk => ?_⟩
  · have hsorted := List.pairwise_map.2 h.sorted
    rw [← LayoutBuilder.assignSlots_names] at hsorted
    exact List.pairwise_map.1 hsorted
  · obtain ⟨j, hj, e⟩ := h.every b hb
    obtain ⟨k, hk, hjk, -⟩ := Result.exists_right_of_mem hrel hj
    exact ⟨k, hk, by rw [hjk]; exact e⟩
  · obtain ⟨j, hj, hjk, hslot, -⟩ := Result.exists_left_of_mem hrel hk
    obtain ⟨hnamed, hkind, hstages, hslots⟩ := h.unites j hj
    rw [hjk]
    exact ⟨hnamed, hkind, hstages, fun b hb e n hn => hslot n (hslots b hb e n hn)⟩
  · obtain ⟨j, -, -, -, hsome⟩ := Result.exists_left_of_mem hrel hk
    exact hsome

namespace LayoutBuilder

/-- Whether bindings can be merged depends on the bindings alone, in whatever order and batches they
come, and so does the layout that they give: one binding for each name, with the kind and all of the
stages of the bindings of its name, and the slot that they give, if any. -/
theorem united_of_compatible (bs : List Binding) :
    (Compatible bs → ∃ spec : LayoutSpec, United bs spec.bindings ∧
      (∀ j ∈ spec.bindings, j.slot.isSome = true) ∧
      ∀ batches : List (List Binding), batches.flatten.Perm bs →
        ∃ l, addEach {} batches = .ok l ∧ l.build = spec) ∧
    (¬ Compatible bs → ∀ batches : List (List Binding), batches.flatten.Perm bs →
      ∃ name old new, addEach {} batches = .error (.duplicateBinding name old new)) := by
  have hmem : ∀ {batches : List (List Binding)}, batches.flatten.Perm bs →
      ∀ b, b ∈ batches.flatten.reverse ++ [] ↔ b ∈ bs := fun hp b => by simp [← hp.mem_iff]
  have hstart : Joined [] ({} : LayoutBuilder).bindings := .empty
  have hok : Compatible bs → ∀ batches : List (List Binding), batches.flatten.Perm bs →
      ∃ l, addEach {} batches = .ok l ∧ Joined bs l.bindings := by
    intro hc batches hp
    rcases hstart.addEach batches with ⟨l, hl, hj⟩ | ⟨-, hn⟩
    · exact ⟨l, hl, hj.congr (hmem hp)⟩
    · exact absurd (hc.mono fun b hb => (hmem hp b).1 hb) hn
  constructor
  · intro hc
    obtain ⟨l, -, hl⟩ := hok hc [bs] (by simp)
    refine ⟨l.build, hl.build.1, hl.build.2, fun batches hp => ?_⟩
    obtain ⟨l', hl', hj⟩ := hok hc batches hp
    refine ⟨l', hl', ?_⟩
    have : l' = l := congrArg LayoutBuilder.mk (hj.unique hl)
    rw [this]
  · intro hn batches hp
    rcases hstart.addEach batches with ⟨l, -, hj⟩ | ⟨herr, -⟩
    · exact absurd (hj.congr (hmem hp)).compatible hn
    · exact herr

/-- A slot that comes later is the slot of the bindings before it. -/
example : (addEach {} [[⟨"fog", .sampler, none, .single .vertex⟩],
      [⟨"fog", .sampler, some 3, .single .pixel⟩]]).map build =
    .ok ⟨[⟨"fog", .sampler, some 3, .ofList [.vertex, .pixel]⟩]⟩ := by decide

end LayoutBuilder

end RenderMaterials
