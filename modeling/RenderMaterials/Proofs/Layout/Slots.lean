import RenderMaterials.Proofs.Layout.Merging

/-!
# Slots of a layout

A builder stays in use after a conflict.  It then holds what came before the binding in conflict,
and whatever is added later; so every builder that can be reached has one binding for a name, and a
finished layout numbers those without a slot above all others.

* `LayoutBuilder.add_cases`: a batch is added as a whole, or up to the binding in conflict.
* `LayoutBuilder.Reachable.joined`: so what a builder holds is always joined from what it took.
* `LayoutBuilder.exists_pastHighest`, `getElem?_assignSlots`: where the numbers start, and which
  binding gets which of them.
* `LayoutBuilder.unassigned_take_lt`: of two bindings without a slot the later gets the higher one.
* `LayoutBuilder.numberedFrom_assignSlots`: numbers that fit 32 bits are those that are counted.
* `LayoutBuilder.numbered_of_reachable`: what failing batches leave, and what is built.
-/

namespace RenderMaterials

/-- Two bindings of a name that cannot be one: their kinds differ, or their slots. -/
def Binding.Conflicts (j b : Binding) : Prop :=
  j.name = b.name ∧ (j.kind ≠ b.kind ∨ ∃ m ∈ j.slot, ∃ n ∈ b.slot, m ≠ n)

namespace LayoutBuilder

variable {l : LayoutBuilder} {js : List Binding} {b c j : Binding} {i k next : Nat}

/-! ### Conflicts -/

/-- A binding is refused because of the one of its name. -/
theorem exists_conflict_of_insert {e : MaterialError} (hs : js.Pairwise (·.name < ·.name))
    (h : insert b js = .error e) :
    ∃ j ∈ js, j.Conflicts b ∧ e = .duplicateBinding b.name j.display b.display := by
  obtain ⟨front, back, -, -, ⟨-, hok⟩ | ⟨j, rfl, hname, hmerge⟩⟩ := insert_cases b hs
  · cases hok.symm.trans h
  · rw [hmerge] at h
    cases hm : j.merge b with
    | ok k => simp [hm, Except.map] at h
    | error x =>
        rw [hm] at h
        obtain rfl := Except.error.inj h
        refine ⟨j, by simp, ⟨hname, ?_⟩, Binding.merge_eq_error hm⟩
        by_contra hno
        push Not at hno
        have hok := Binding.merge_eq_ok.2 ⟨hno.1, hno.2, rfl⟩
        cases hok.symm.trans hm

/-- A batch is added as a whole, or up to the binding in conflict. -/
theorem add_cases (l : LayoutBuilder) (bs : List Binding) :
    l.add bs = ((l.add bs).1, .ok ()) ∨ ∃ earlier b later e, bs = earlier ++ b :: later ∧
      l.add earlier = ((l.add bs).1, .ok ()) ∧ insert b (l.add bs).1.bindings = .error e ∧
      (l.add bs).2 = .error e := by
  induction bs generalizing l with
  | nil => exact .inl rfl
  | cons b bs ih =>
      cases hi : insert b l.bindings with
      | error e =>
          have hadd : l.add (b :: bs) = (l, .error e) := by rw [add, hi]
          rw [hadd]
          exact .inr ⟨[], b, bs, e, rfl, rfl, hi, rfl⟩
      | ok js =>
          have hadd : ∀ bs, l.add (b :: bs) = add ⟨js⟩ bs := fun bs => by rw [add, hi]
          rw [hadd]
          rcases ih ⟨js⟩ with hok | ⟨earlier, c, later, e, rfl, hearlier, hinsert, herr⟩
          · exact .inl hok
          · exact .inr ⟨b :: earlier, c, later, e, rfl, by rw [hadd, hearlier], hinsert, herr⟩

/-! ### Builders in use -/

/-- What can become of a new builder by adding batches, whether or not they end in a conflict. -/
inductive Reachable : LayoutBuilder → Prop
  | empty : Reachable {}
  | add {l : LayoutBuilder} (h : Reachable l) (bs : List Binding) : Reachable (l.add bs).1

/-- A builder holds what the bindings that it took say, name by name. -/
theorem Reachable.joined (h : l.Reachable) : ∃ seen, Joined seen l.bindings := by
  induction h with
  | empty => exact ⟨[], .empty⟩
  | @add l _ bs ih =>
      obtain ⟨seen, hseen⟩ := ih
      have htaken : ∃ taken, l.add taken = ((l.add bs).1, .ok ()) := by
        rcases add_cases l bs with hok | ⟨earlier, -, -, -, -, hearlier, -⟩
        · exact ⟨bs, hok⟩
        · exact ⟨earlier, hearlier⟩
      obtain ⟨taken, htaken⟩ := htaken
      rcases hseen.add taken with ⟨l', hl', hjoined⟩ | ⟨⟨l', name, old, new, herr⟩, -⟩
      · obtain rfl := congrArg Prod.fst (hl'.symm.trans htaken)
        exact ⟨_, hjoined⟩
      · cases congrArg Prod.snd (herr.symm.trans htaken)

/-! ### Numbers -/

/-- A number past all slots of bindings, by one; zero where there are none. -/
structure PastHighest (js : List Binding) (next : Nat) : Prop where
  lt      : ∀ j ∈ js, ∀ n ∈ j.slot, n < next
  reached : next = 0 ∨ ∃ j ∈ js, ∃ n ∈ j.slot, next = n + 1

/-- Numbers start past the highest slot, as far as this fits 32 bits. -/
theorem exists_pastHighest (js : List Binding) :
    ∃ next, PastHighest js next ∧ firstFree js = addWord32 next 0 := by
  rw [firstFree]
  cases hm : (js.filterMap (·.slot)).max? with
  | none =>
      refine ⟨0, ⟨fun j hj n hn => ?_, .inl rfl⟩, rfl⟩
      have hmem : n ∈ js.filterMap (·.slot) := List.mem_filterMap.2 ⟨j, hj, hn⟩
      rw [List.max?_eq_none_iff.1 hm] at hmem
      cases hmem
  | some m =>
      obtain ⟨hmem, hle⟩ := List.max?_eq_some_iff.1 hm
      obtain ⟨j, hj, hslot⟩ := List.mem_filterMap.1 hmem
      refine ⟨m + 1, ⟨fun i hi n hn => ?_, .inr ⟨j, hj, m, hslot, rfl⟩⟩, rfl⟩
      exact Nat.lt_succ_of_le (hle n (List.mem_filterMap.2 ⟨i, hi, hn⟩))

/-- The bindings without a slot. -/
def unassigned (js : List Binding) : Nat := js.countP (·.slot.isNone)

theorem unassigned_cons_some {n : Nat} (hj : j.slot = some n) (js : List Binding) :
    unassigned (j :: js) = unassigned js := by
  simp [unassigned, hj]

theorem unassigned_cons_none (hj : j.slot = none) (js : List Binding) :
    unassigned (j :: js) = unassigned js + 1 := by
  simp [unassigned, hj]

/-- A binding without a slot gets the next number after those in front of it, in 32 bits. -/
theorem getElem?_assignSlots (next n : Nat) (js : List Binding) (i : Nat) :
    (assignSlots (addWord32 next n) js)[i]? = js[i]?.map fun j : Binding =>
      { j with slot := some (j.slot.getD (addWord32 next (n + unassigned (js.take i)))) } := by
  induction js generalizing n i with
  | nil => rfl
  | cons j js ih =>
      unfold assignSlots
      cases hj : j.slot with
      | some m =>
          cases i with
          | zero =>
              cases j
              cases hj
              rfl
          | succ i => simp [ih, unassigned_cons_some hj]
      | none =>
          cases i with
          | zero => simp [hj, unassigned]
          | succ i =>
              simp [addWord32_assoc, ih, unassigned_cons_none hj, Nat.add_assoc, Nat.add_comm 1]

/-- Of two bindings without a slot the one behind has more of them in front. -/
theorem unassigned_take_lt (hj : js[i]? = some j) (hnone : j.slot = none) (hik : i < k) :
    unassigned (js.take i) < unassigned (js.take k) := by
  obtain ⟨hi, rfl⟩ := List.getElem?_eq_some_iff.1 hj
  have hsucc : unassigned (js.take (i + 1)) = unassigned (js.take i) + 1 := by
    rw [List.take_succ_eq_append_getElem hi, unassigned, List.countP_append]
    simp [hnone, unassigned]
  have hle : unassigned (js.take (i + 1)) ≤ unassigned (js.take k) :=
    (List.take_prefix_take_left hik).sublist.countP_le
  omega

/-- A binding without a slot has fewer of them in front than there are. -/
theorem unassigned_take_lt_unassigned (hj : js[i]? = some j) (hnone : j.slot = none) :
    unassigned (js.take i) < unassigned js := by
  have hlt := unassigned_take_lt hj hnone (List.getElem?_eq_some_iff.1 hj).1
  rwa [List.take_length] at hlt

/-! ### Numbers that fit -/

/-- Bindings with a number for each that had no slot, in order from `next` on. -/
def NumberedFrom (next : Nat) (js ks : List Binding) : Prop :=
  ∀ i, ks[i]? = js[i]?.map fun j : Binding =>
    { j with slot := some (j.slot.getD (next + unassigned (js.take i))) }

/-- Numbers that fit 32 bits are those that are counted. -/
theorem numberedFrom_assignSlots (hfits : next + unassigned js ≤ word32Bound) :
    NumberedFrom next js (assignSlots (addWord32 next 0) js) := by
  intro i
  rw [getElem?_assignSlots]
  cases hj : js[i]? with
  | none => rfl
  | some j =>
      cases hs : j.slot with
      | some n => simp [hs]
      | none =>
          have hfront := unassigned_take_lt_unassigned hj hs
          have hword : next + unassigned (js.take i) < word32Bound := by omega
          simp [hs, addWord32_of_lt hword]

namespace NumberedFrom

variable {ks : List Binding}

/-- The number of a binding without a slot is the slot of no other binding. -/
theorem slot_ne (h : NumberedFrom next js ks) (hlt : ∀ j ∈ js, ∀ n ∈ j.slot, n < next)
    (hik : i ≠ k) (hj : js[i]? = some j) (hnone : j.slot = none) (hb : ks[i]? = some b)
    (hc : ks[k]? = some c) : b.slot ≠ c.slot := by
  rw [h, hj, Option.map_some, hnone] at hb
  obtain rfl := Option.some.inj hb
  rw [h, Option.map_eq_some_iff] at hc
  obtain ⟨d, hd, rfl⟩ := hc
  intro he
  have he := Option.some.inj he
  cases hs : d.slot with
  | some n =>
      have hn := hlt d (List.mem_of_getElem? hd) n hs
      rw [hs, Option.getD_some, Option.getD_none] at he
      omega
  | none =>
      rw [hs, Option.getD_none, Option.getD_none, Nat.add_left_cancel_iff] at he
      rcases Nat.lt_or_gt_of_ne hik with hlt | hgt
      · exact absurd he (Nat.ne_of_lt (unassigned_take_lt hj hnone hlt))
      · exact absurd he.symm (Nat.ne_of_lt (unassigned_take_lt hd hs hgt))

/-- No slot is past the last number. -/
theorem slot_lt {n : Nat} (h : NumberedFrom next js ks) (hlt : ∀ j ∈ js, ∀ n ∈ j.slot, n < next)
    (hb : b ∈ ks) (hn : n ∈ b.slot) : n < next + unassigned js := by
  obtain ⟨i, hi⟩ := List.mem_iff_getElem?.1 hb
  rw [h, Option.map_eq_some_iff] at hi
  obtain ⟨j, hj, rfl⟩ := hi
  obtain rfl := Option.some.inj hn
  cases hs : j.slot with
  | some m =>
      have hm := hlt j (List.mem_of_getElem? hj) m hs
      rw [Option.getD_some]
      omega
  | none =>
      have hfront := unassigned_take_lt_unassigned hj hs
      rw [Option.getD_none]
      omega

end NumberedFrom

/-! ### What is built -/

/-- A batch that fails leaves what the bindings before the conflict make.  What is built from any
builder in use is sorted by name, keeps the slots that were given, and numbers the other bindings in
order from one past the highest of them, in 32 bits.  When all these numbers fit, they are the plain
ones: then a number is the slot of no other binding, and no slot is past the last of them. -/
theorem numbered_of_reachable (h : l.Reachable) :
    (∀ bs l' e, l.add bs = (l', .error e) → ∃ earlier b later j, bs = earlier ++ b :: later ∧
      l.add earlier = (l', .ok ()) ∧ j ∈ l'.bindings ∧ j.Conflicts b ∧
      e = .duplicateBinding b.name j.display b.display) ∧
    l.build.bindings.Pairwise (·.name < ·.name) ∧
    ∃ next, PastHighest l.bindings next ∧
      (∀ i, l.build.bindings[i]? = l.bindings[i]?.map fun j : Binding =>
        { j with slot := some (j.slot.getD
            (addWord32 next (unassigned (l.bindings.take i)))) }) ∧
      (next + unassigned l.bindings ≤ word32Bound →
        (∀ i, l.build.bindings[i]? = l.bindings[i]?.map fun j : Binding =>
          { j with slot := some (j.slot.getD (next + unassigned (l.bindings.take i))) }) ∧
        (∀ (i k : Nat) (j b c : Binding), i ≠ k → l.bindings[i]? = some j → j.slot = none →
          l.build.bindings[i]? = some b → l.build.bindings[k]? = some c → b.slot ≠ c.slot) ∧
        ∀ b ∈ l.build.bindings, ∀ n ∈ b.slot, n < next + unassigned l.bindings) := by
  obtain ⟨seen, hjoined⟩ := h.joined
  obtain ⟨next, hnext, hfirst⟩ := exists_pastHighest l.bindings
  refine ⟨fun bs l' e herr => ?_, ?_, next, hnext, fun i => ?_, fun hfits => ?_⟩
  · rcases add_cases l bs with hok | ⟨earlier, b, later, e', rfl, hearlier, hinsert, herr'⟩
    · cases congrArg Prod.snd (herr.symm.trans hok)
    · obtain ⟨seen', hjoined'⟩ := (h.add (earlier ++ b :: later)).joined
      rw [herr] at hearlier hinsert herr' hjoined'
      obtain rfl := Except.error.inj herr'
      obtain ⟨j, hj, hconflict, he⟩ := exists_conflict_of_insert hjoined'.sorted hinsert
      exact ⟨earlier, b, later, j, rfl, hearlier, hj, hconflict, he⟩
  · exact hjoined.build.1.sorted
  · rw [build, hfirst, getElem?_assignSlots]
    simp only [Nat.zero_add]
  · have hnumbered : NumberedFrom next l.bindings l.build.bindings := by
      rw [build, hfirst]
      exact numberedFrom_assignSlots hfits
    refine ⟨hnumbered, ?_, ?_⟩
    · intro i k j b c hik hj hnone hb hc
      exact hnumbered.slot_ne hnext.lt hik hj hnone hb hc
    · intro b hb n hn
      exact hnumbered.slot_lt hnext.lt hb hn

/-! ### A builder after a conflict -/

namespace RefusedFog

/-- A texture without a slot, and a camera in slot 3. -/
def pass : List Binding :=
  [⟨"shadow", .readOnlyResource, none, .single .pixel⟩,
    ⟨"camera", .constantBuffer, some 3, .single .vertex⟩]

/-- A texture, and the camera in another slot. -/
def refused : List Binding :=
  [⟨"albedo", .readOnlyResource, none, .single .pixel⟩,
    ⟨"camera", .constantBuffer, some 5, .single .pixel⟩, ⟨"fog", .sampler, none, .single .pixel⟩]

def builder : LayoutBuilder := (LayoutBuilder.add (LayoutBuilder.add {} pass).1 refused).1

/-- The camera keeps its slot, and the textures get the two behind it. -/
theorem numbered_after_refusal : builder.Reachable ∧
    ∃ next, PastHighest builder.bindings next ∧ builder.build.bindings[0]? =
      some ⟨"albedo", .readOnlyResource, some next, .single .pixel⟩ ∧
    builder.build.bindings[1]? = some ⟨"camera", .constantBuffer, some 3, .single .vertex⟩ ∧
    builder.build.bindings[2]? =
      some ⟨"shadow", .readOnlyResource, some (next + 1), .single .pixel⟩ := by
  have hreachable : builder.Reachable := (Reachable.empty.add pass).add refused
  have hbindings : builder.bindings = [⟨"albedo", .readOnlyResource, none, .single .pixel⟩,
      ⟨"camera", .constantBuffer, some 3, .single .vertex⟩,
      ⟨"shadow", .readOnlyResource, none, .single .pixel⟩] := by decide
  obtain ⟨-, -, next, hnext, -, hfits⟩ := numbered_of_reachable hreachable
  rw [hbindings] at hnext hfits
  -- the highest slot is that of the camera
  have hfour : next ≤ 4 := by
    rcases hnext.reached with rfl | ⟨j, hj, n, hn, rfl⟩
    · omega
    · simp only [List.mem_cons, List.not_mem_nil, or_false] at hj
      rcases hj with rfl | rfl | rfl
      · cases hn
      · obtain rfl := Option.some.inj hn
        omega
      · cases hn
  have hroom : next + 2 ≤ word32Bound := Nat.le_trans (Nat.add_le_add_right hfour 2) (by decide)
  obtain ⟨hslots, -, -⟩ := hfits hroom
  exact ⟨hreachable, next, hbindings ▸ hnext, hslots 0, hslots 1, hslots 2⟩

end RefusedFog

end LayoutBuilder

end RenderMaterials
