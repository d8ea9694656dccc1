import RenderMaterials.Proofs.Shader.SinglePass
import Mathlib.Data.List.Induction
import Mathlib.Data.Nat.Bits

/-!
# Shader texts — which lines count

The selection keeps for each open condition whether lines count in it and around it.  What these
branches stand for is told here by the lines alone: which conditions are open behind some lines, and
how often each was turned around.

* `Conditional.Balanced`: no line turns or closes a condition where none is open, and none is open
  at the end.
* `Conditional.Counts`: every condition that is open behind some lines holds there.
* `conditions_getElem?`: whether the conditions that are open hold, one by one, the innermost first.
* `selectFrom_eq`, `balanced_of_selectFrom`: what is selected, and that only balanced lines are.
* `selects_iff_balanced`: balanced lines are selected, and those are kept that count.
-/

namespace RenderMaterials.Conditional

variable {isDefined : String → Bool} {before mid ls out : List String} {l : String} {n k : Nat}
  {v : Bool}

/-! ### Open conditions -/

/-- How many of some lines open a condition. -/
def opened (ls : List String) : Nat := ls.countP fun l => directive? l matches some (.opens ..)

/-- How many of some lines close a condition. -/
def closed (ls : List String) : Nat := ls.countP fun l => directive? l matches some .closes

/-- A line that is about a condition that is open already. -/
def Continues (l : String) : Prop := directive? l = some .turns ∨ directive? l = some .closes

/-- Lines that turn and close conditions only where some are open. -/
def Nested (ls : List String) : Prop :=
  ∀ i l, ls[i]? = some l → Continues l → closed (ls.take i) < opened (ls.take i)

/-- Nested lines that leave no condition open. -/
structure Balanced (ls : List String) : Prop where
  nested : Nested ls
  even   : opened ls = closed ls

/-- A condition that was opened right before some lines is open behind them: nowhere do they close
more conditions than they open. -/
def StaysOpen (mid : List String) : Prop := ∀ front, front <+: mid → closed front ≤ opened front

/-- How often some lines turn a condition that was opened right before them: at the lines that turn
one where all conditions that were opened in between are closed again. -/
def turns (mid : List String) : Nat :=
  (List.range mid.length).countP fun i =>
    mid[i]?.bind directive? = some .turns ∧ opened (mid.take i) = closed (mid.take i)

/-- Whether a condition that was opened right before some lines holds behind them: what it asks of
its name, turned around as often as the lines turn it. -/
def holds (isDefined : String → Bool) (name : String) (defined : Bool) (mid : List String) : Bool :=
  (isDefined name == defined) ^^ (turns mid).bodd

/-- Every condition that is open behind some lines holds there. -/
def Counts (isDefined : String → Bool) (before : List String) : Prop :=
  ∀ i l name defined, before[i]? = some l → directive? l = some (.opens name defined) →
    StaysOpen (before.drop (i + 1)) → holds isDefined name defined (before.drop (i + 1)) = true

/-- What is selected of some lines: the lines that are no directives and stand where every open
condition holds; all others are emptied. -/
structure Selects (isDefined : String → Bool) (ls out : List String) : Prop where
  length  : out.length = ls.length
  whole   : ∀ l ∈ out, Text.Whole l
  kept    : ∀ i l, ls[i]? = some l → directive? l = none → Counts isDefined (ls.take i) →
    out[i]? = some l
  emptied : ∀ i l, ls[i]? = some l → ¬ (directive? l = none ∧ Counts isDefined (ls.take i)) →
    out[i]? = some ""

/-! ### One more line -/

@[simp] theorem opened_snoc (ls : List String) (l : String) :
    opened (ls ++ [l]) = opened ls + if directive? l matches some (.opens ..) then 1 else 0 := by
  simp [opened, List.countP_append, List.countP_singleton]

@[simp] theorem closed_snoc (ls : List String) (l : String) :
    closed (ls ++ [l]) = closed ls + if directive? l matches some .closes then 1 else 0 := by
  simp [closed, List.countP_append, List.countP_singleton]

theorem turns_snoc (mid : List String) (l : String) :
    turns (mid ++ [l]) = turns mid +
      if directive? l = some .turns ∧ opened mid = closed mid then 1 else 0 := by
  unfold turns
  rw [List.length_append, List.length_singleton, List.range_succ, List.countP_append,
    List.countP_singleton]
  congr 1
  · refine List.countP_congr fun i hi => ?_
    have hlt := List.mem_range.1 hi
    rw [List.getElem?_append_left hlt, List.take_append_of_le_length (Nat.le_of_lt hlt)]
  · simp

theorem staysOpen_nil : StaysOpen [] := by
  intro front h
  rw [List.prefix_nil.1 h]
  exact Nat.le_refl _

theorem staysOpen_snoc (mid : List String) (l : String) :
    StaysOpen (mid ++ [l]) ↔ StaysOpen mid ∧ closed (mid ++ [l]) ≤ opened (mid ++ [l]) := by
  simp only [StaysOpen, List.prefix_concat_iff]
  constructor
  · exact fun h => ⟨fun front hf => h front (.inr hf), h _ (.inl rfl)⟩
  · rintro ⟨h, hl⟩ front (rfl | hf)
    · exact hl
    · exact h front hf

/-- The lines of a longer list. -/
theorem getElem?_snoc_eq_some {i : Nat} {x : String} :
    (ls ++ [l])[i]? = some x ↔ ls[i]? = some x ∨ i = ls.length ∧ l = x := by
  rcases Nat.lt_trichotomy i ls.length with h | rfl | h
  · rw [List.getElem?_append_left h]
    simp [Nat.ne_of_lt h]
  · simp
  · rw [List.getElem?_eq_none (by simp; omega), List.getElem?_eq_none (Nat.le_of_lt h)]
    simp [Nat.ne_of_gt h]

theorem nested_snoc (ls : List String) (l : String) :
    Nested (ls ++ [l]) ↔ Nested ls ∧ (Continues l → closed ls < opened ls) := by
  have htake : ∀ {i x}, ls[i]? = some x → (ls ++ [l]).take i = ls.take i := fun h =>
    List.take_append_of_le_length (Nat.le_of_lt (List.getElem?_eq_some_iff.1 h).1)
  unfold Nested
  constructor
  · intro h
    refine ⟨fun i x hx hc => ?_, fun hc => ?_⟩
    · rw [← htake hx]
      exact h i x (getElem?_snoc_eq_some.2 (.inl hx)) hc
    · simpa using h ls.length l (getElem?_snoc_eq_some.2 (.inr ⟨rfl, rfl⟩)) hc
  · rintro ⟨h, hl⟩ i x hx hc
    rcases getElem?_snoc_eq_some.1 hx with hx | ⟨rfl, rfl⟩
    · rw [htake hx]
      exact h i x hx hc
    · simpa using hl hc

/-! ### Whether open conditions hold -/

/-- What a line does to whether open conditions hold, the innermost first. -/
def note (isDefined : String → Bool) (vs : List Bool) (l : String) : List Bool :=
  match directive? l with
  | none                       => vs
  | some (.opens name defined) => (isDefined name == defined) :: vs
  | some .turns                => vs.modifyHead (!·)
  | some .closes               => vs.tail

/-- Whether the conditions that are open behind some lines hold, the innermost first. -/
def conditions (isDefined : String → Bool) (before : List String) : List Bool :=
  before.foldl (note isDefined) []

@[simp] theorem conditions_snoc (before : List String) (l : String) :
    conditions isDefined (before ++ [l]) = note isDefined (conditions isDefined before) l := by
  simp [conditions]

/-- A condition that was opened right before some lines is open behind them, with a number of open
conditions in it, and holds there or not. -/
def Spans (isDefined : String → Bool) (name : String) (defined : Bool) (mid : List String)
    (inner : Nat) (v : Bool) : Prop :=
  StaysOpen mid ∧ opened mid = closed mid + inner ∧ holds isDefined name defined mid = v

/-- A condition is open behind some lines, with a number of open conditions in it, and holds there
or not. -/
def IsOpen (isDefined : String → Bool) (before : List String) (inner : Nat) (v : Bool) : Prop :=
  ∃ i l name defined, before[i]? = some l ∧ directive? l = some (.opens name defined) ∧
    Spans isDefined name defined (before.drop (i + 1)) inner v

section Spans

variable {name : String} {defined : Bool}

theorem spans_nil : Spans isDefined name defined [] k v ↔
    k = 0 ∧ v = (isDefined name == defined) := by
  simp [Spans, staysOpen_nil, opened, closed, holds, turns, eq_comm]

/-- Behind one more line a condition is open if it was before, unless the line closes it. -/
theorem spans_snoc : Spans isDefined name defined (mid ++ [l]) k v ↔
    StaysOpen mid ∧ opened (mid ++ [l]) = closed (mid ++ [l]) + k ∧
      holds isDefined name defined (mid ++ [l]) = v := by
  unfold Spans
  rw [staysOpen_snoc]
  exact ⟨fun ⟨hs, hk, hv⟩ => ⟨hs.1, hk, hv⟩, fun ⟨hs, hk, hv⟩ => ⟨⟨hs, by omega⟩, hk, hv⟩⟩

theorem holds_snoc (mid : List String) (l : String) :
    holds isDefined name defined (mid ++ [l]) =
      (holds isDefined name defined mid ^^
        decide (directive? l = some .turns ∧ opened mid = closed mid)) := by
  unfold holds
  rw [turns_snoc]
  split
  · next h => simp [h]
  · next h => simp [h]

theorem spans_text (h : directive? l = none) :
    Spans isDefined name defined (mid ++ [l]) k v ↔ Spans isDefined name defined mid k v := by
  rw [spans_snoc]
  simp [Spans, holds_snoc, h]

theorem spans_opens {name' : String} {defined' : Bool}
    (h : directive? l = some (.opens name' defined')) :
    Spans isDefined name defined (mid ++ [l]) k v ↔
      ∃ j, k = j + 1 ∧ Spans isDefined name defined mid j v := by
  rw [spans_snoc]
  simp only [Spans, holds_snoc, opened_snoc, closed_snoc, h]
  constructor
  · rintro ⟨hs, hk, hv⟩
    have hle := hs mid (List.prefix_refl mid)
    simp only [↓reduceIte, Bool.false_eq_true, Nat.add_zero] at hk
    exact ⟨k - 1, by omega, hs, by omega, by simpa using hv⟩
  · rintro ⟨j, rfl, hs, hk, hv⟩
    refine ⟨hs, ?_, by simpa using hv⟩
    simp only [↓reduceIte, Bool.false_eq_true]
    omega

/-- The innermost condition is turned around. -/
theorem spans_turns (h : directive? l = some .turns) :
    Spans isDefined name defined (mid ++ [l]) k v ↔
      Spans isDefined name defined mid k (if k = 0 then !v else v) := by
  rw [spans_snoc]
  simp only [Spans, holds_snoc, opened_snoc, closed_snoc, h, Bool.false_eq_true, ↓reduceIte,
    Nat.add_zero, true_and]
  refine and_congr_right fun _ => and_congr_right fun hk => ?_
  cases k with
  | zero =>
      rw [Nat.add_zero] at hk
      simp [hk, Bool.eq_not]
  | succ k =>
      have hne : opened mid ≠ closed mid := by omega
      simp [hne]

/-- The innermost condition is open no more. -/
theorem spans_closes (h : directive? l = some .closes) :
    Spans isDefined name defined (mid ++ [l]) k v ↔
      Spans isDefined name defined mid (k + 1) v := by
  rw [spans_snoc]
  simp only [Spans, holds_snoc, opened_snoc, closed_snoc, h, Bool.false_eq_true, ↓reduceIte,
    Nat.add_zero, Nat.add_right_comm _ 1 k, Nat.add_assoc]
  simp

/-- A condition that is open behind one more line is opened by it, or was open before. -/
theorem isOpen_snoc : IsOpen isDefined (before ++ [l]) k v ↔
    (∃ name defined, directive? l = some (.opens name defined) ∧
      Spans isDefined name defined [] k v) ∨
    ∃ i x name defined, before[i]? = some x ∧ directive? x = some (.opens name defined) ∧
      Spans isDefined name defined (before.drop (i + 1) ++ [l]) k v := by
  unfold IsOpen
  constructor
  · rintro ⟨i, x, name, defined, hx, hd, hs⟩
    rcases getElem?_snoc_eq_some.1 hx with hx | ⟨rfl, rfl⟩
    · have hi := (List.getElem?_eq_some_iff.1 hx).1
      rw [List.drop_append_of_le_length hi] at hs
      exact .inr ⟨i, x, name, defined, hx, hd, hs⟩
    · exact .inl ⟨name, defined, hd, by simpa using hs⟩
  · rintro (⟨name, defined, hd, hs⟩ | ⟨i, x, name, defined, hx, hd, hs⟩)
    · exact ⟨before.length, l, name, defined, getElem?_snoc_eq_some.2 (.inr ⟨rfl, rfl⟩), hd,
        by simpa using hs⟩
    · refine ⟨i, x, name, defined, getElem?_snoc_eq_some.2 (.inl hx), hd, ?_⟩
      rwa [List.drop_append_of_le_length (List.getElem?_eq_some_iff.1 hx).1]

end Spans

/-- What is noted of open conditions is what the lines say of them. -/
theorem conditions_getElem? :
    (conditions isDefined before)[k]? = some v ↔ IsOpen isDefined before k v := by
  induction before using List.reverseRecOn generalizing k v with
  | nil => simp [conditions, IsOpen]
  | append_singleton before l ih =>
      rw [conditions_snoc, isOpen_snoc, note]
      cases hd : directive? l with
      | none =>
          simp only [spans_text hd, ih]
          simp [IsOpen]
      | some d =>
          cases d with
          | opens name defined =>
              simp only [spans_opens hd, spans_nil, Option.some.injEq, Directive.opens.injEq]
              cases k with
              | zero =>
                  constructor
                  · intro h
                    exact .inl ⟨name, defined, ⟨rfl, rfl⟩, rfl, by simpa [eq_comm] using h⟩
                  · rintro (⟨_, _, ⟨rfl, rfl⟩, -, rfl⟩ | ⟨_, _, _, _, _, _, j, hj, _⟩)
                    · rfl
                    · cases hj
              | succ k => simp [ih, IsOpen]
          | turns =>
              have hno : ¬ ∃ name defined, some Directive.turns = some (.opens name defined) ∧
                  Spans isDefined name defined [] k v := by simp
              simp only [spans_turns hd, List.getElem?_modifyHead, hno, false_or]
              cases k with
              | zero =>
                  have hturn : ∀ o : Option Bool, o.map (!·) = some v ↔ o = some (!v) := fun o => by
                    cases o <;> simp [Bool.not_eq_eq_eq_not]
                  rw [if_pos rfl, if_pos rfl, hturn, ih]
                  rfl
              | succ k => simp [ih, IsOpen]
          | closes =>
              simp only [spans_closes hd, List.getElem?_tail, ih]
              simp [IsOpen]

/-- Lines count behind others when the conditions that are open there hold. -/
theorem counts_iff : Counts isDefined before ↔ (conditions isDefined before).all id = true := by
  rw [List.all_eq_true]
  constructor
  · intro h v hv
    obtain ⟨k, hk⟩ := List.mem_iff_getElem?.1 hv
    obtain ⟨i, l, name, defined, hl, hd, hs, -, rfl⟩ := conditions_getElem?.1 hk
    exact h i l name defined hl hd hs
  · intro h i l name defined hl hd hs
    have hle := hs _ (List.prefix_refl _)
    have hspans : Spans isDefined name defined (before.drop (i + 1)) _ _ :=
      ⟨hs, (Nat.add_sub_of_le hle).symm, rfl⟩
    exact h _ (List.mem_of_getElem? (conditions_getElem?.2 ⟨i, l, name, defined, hl, hd, hspans⟩))

/-- As many conditions are noted as were opened and not closed. -/
theorem Nested.length_conditions (h : Nested before) (isDefined : String → Bool) :
    (conditions isDefined before).length + closed before = opened before := by
  induction before using List.reverseRecOn with
  | nil => rfl
  | append_singleton before l ih =>
      obtain ⟨hbefore, hl⟩ := (nested_snoc before l).1 h
      have hlen := ih hbefore
      rw [conditions_snoc, opened_snoc, closed_snoc, note]
      cases hd : directive? l with
      | none => simpa using hlen
      | some d =>
          cases d with
          | opens name defined =>
              simp only [List.length_cons, ↓reduceIte, Bool.false_eq_true, Nat.add_zero]
              omega
          | turns => simpa using hlen
          | closes =>
              have hpos := hl (.inr hd)
              simp only [List.length_tail, ↓reduceIte, Bool.false_eq_true, Nat.add_zero]
              omega

/-! ### Selecting -/

/-- The branches of open conditions of which is known whether they hold. -/
def branches : List Bool → List Branch
  | []      => []
  | v :: vs => ⟨vs.all id && v, vs.all id⟩ :: branches vs

theorem countsIn_branches (vs : List Bool) : countsIn (branches vs) = vs.all id := by
  cases vs with
  | nil => rfl
  | cons v vs => simp [branches, countsIn, Bool.and_comm]

/-- What becomes of a line where open conditions hold or not. -/
def shown (vs : List Bool) (l : String) : String :=
  if directive? l = none ∧ vs.all id = true then l else ""

theorem step_branches {vs : List Bool} (h : Continues l → vs ≠ []) :
    step isDefined n (branches vs) l = .ok (shown vs l, branches (note isDefined vs l)) := by
  unfold step note shown
  cases hd : directive? l with
  | none => simp [countsIn_branches]
  | some d =>
      cases d with
      | opens name defined => simp [branches, countsIn_branches]
      | turns =>
          cases vs with
          | nil => exact absurd rfl (h (.inl hd))
          | cons v vs => cases v <;> simp [branches]
      | closes =>
          cases vs with
          | nil => exact absurd rfl (h (.inr hd))
          | cons v vs => simp [branches]

/-- A line that is about an open condition is a fault where none is open. -/
theorem exists_step_nil_eq_error (h : Continues l) (isDefined : String → Bool) (n : Nat) :
    ∃ e, step isDefined n [] l = .error e := by
  unfold step
  rcases h with h | h
  · exact ⟨_, by rw [h]⟩
  · exact ⟨_, by rw [h]⟩

theorem Nested.of_append {after : List String} (h : Nested (before ++ after)) : Nested before := by
  induction after using List.reverseRecOn with
  | nil => simpa using h
  | append_singleton after l ih =>
      rw [← List.append_assoc] at h
      exact ih ((nested_snoc _ l).1 h).1

/-- The lines that are selected when some others stand before them. -/
def selectedBehind (isDefined : String → Bool) (before ls : List String) : List String :=
  ls.mapIdx fun i l => shown (conditions isDefined (before ++ ls.take i)) l

theorem selectedBehind_cons (before : List String) (l : String) (ls : List String) :
    selectedBehind isDefined before (l :: ls) =
      shown (conditions isDefined before) l :: selectedBehind isDefined (before ++ [l]) ls := by
  simp [selectedBehind, List.mapIdx_cons]

/-- Balanced lines are selected. -/
theorem selectFrom_eq (before : List String) (n : Nat) (h : Balanced (before ++ ls)) :
    selectFrom isDefined n (branches (conditions isDefined before)) ls =
      .ok (selectedBehind isDefined before ls) := by
  induction ls generalizing before n with
  | nil =>
      rw [List.append_nil] at h
      have hlen := h.nested.length_conditions isDefined
      have heven := h.even
      have hnil : conditions isDefined before = [] := List.eq_nil_of_length_eq_zero (by omega)
      rw [hnil]
      rfl
  | cons l ls ih =>
      have happend : before ++ l :: ls = before ++ [l] ++ ls := by simp
      rw [happend] at h
      obtain ⟨hbefore, hl⟩ := (nested_snoc before l).1 h.nested.of_append
      -- as many conditions are open as are noted
      have hlen := hbefore.length_conditions isDefined
      have hne : Continues l → conditions isDefined before ≠ [] := fun hc hnil => by
        have hopen := hl hc
        rw [hnil, List.length_nil] at hlen
        omega
      rw [selectFrom_cons, step_branches hne, Result.ok_bind]
      dsimp only
      rw [← conditions_snoc, ih (before ++ [l]) (n + 1) h, Result.ok_bind, selectedBehind_cons]

/-- Only balanced lines are selected. -/
theorem balanced_of_selectFrom (hn : Nested before)
    (h : selectFrom isDefined n (branches (conditions isDefined before)) ls = .ok out) :
    Balanced (before ++ ls) := by
  induction ls generalizing before n out with
  | nil =>
      rw [List.append_nil]
      refine ⟨hn, ?_⟩
      have hlen := hn.length_conditions isDefined
      cases hc : conditions isDefined before with
      | nil => rw [hc] at hlen; simpa using hlen.symm
      | cons v vs => rw [hc] at h; cases h
  | cons l ls ih =>
      rw [selectFrom_cons, Result.bind_eq_ok] at h
      obtain ⟨r, hr, h⟩ := h
      obtain ⟨rest, hrest, -⟩ := Result.bind_eq_ok.1 h
      have hlen := hn.length_conditions isDefined
      have hne : Continues l → conditions isDefined before ≠ [] := fun hc hnil => by
        obtain ⟨e, he⟩ := exists_step_nil_eq_error hc isDefined n
        rw [hnil] at hr
        cases hr.symm.trans he
      have hsnoc : Nested (before ++ [l]) := (nested_snoc before l).2 ⟨hn, fun hc => by
        have := List.length_pos_iff.2 (hne hc)
        omega⟩
      obtain rfl := Except.ok.inj ((step_branches hne).symm.trans hr)
      dsimp only at hrest
      rw [← conditions_snoc] at hrest
      simpa using ih hsnoc hrest

/-- What is selected of the lines of a text. -/
theorem selects_selectedBehind (hls : ∀ l ∈ ls, Text.Whole l) :
    Selects isDefined ls (selectedBehind isDefined [] ls) := by
  have hget : ∀ i l, ls[i]? = some l → (selectedBehind isDefined [] ls)[i]? =
      some (shown (conditions isDefined (ls.take i)) l) := fun i l hl => by
    simp [selectedBehind, List.getElem?_mapIdx, hl]
  refine ⟨by simp [selectedBehind], fun l hl => ?_, fun i l hl hd hc => ?_, fun i l hl hno => ?_⟩
  · obtain ⟨i, hi, rfl⟩ := List.mem_mapIdx.1 hl
    unfold shown
    split
    · exact hls _ (List.getElem_mem hi)
    · exact fun c hc => absurd hc (by simp)
  · rw [hget i l hl, shown, if_pos ⟨hd, counts_iff.1 hc⟩]
  · rw [hget i l hl, shown, if_neg fun h => hno ⟨h.1, counts_iff.2 h.2⟩]

/-- The lines of a text are selected exactly when they are balanced.  Then one line comes out for
each that goes in: the line itself, if it is no directive and every condition that is open there
holds, and an empty one else. -/
theorem selects_iff_balanced (isDefined : String → Bool) (text : String) :
    ((∃ out, select isDefined (Text.lines text) = .ok out) ↔ Balanced (Text.lines text)) ∧
    ∀ out, select isDefined (Text.lines text) = .ok out →
      Selects isDefined (Text.lines text) out := by
  have hnested : Nested [] := by simp [Nested]
  have hbalanced : ∀ {out}, select isDefined (Text.lines text) = .ok out →
      Balanced (Text.lines text) := fun h => balanced_of_selectFrom hnested h
  have hselect : Balanced (Text.lines text) → select isDefined (Text.lines text) =
      .ok (selectedBehind isDefined [] (Text.lines text)) := selectFrom_eq [] 1
  refine ⟨⟨fun ⟨out, h⟩ => hbalanced h, fun h => ⟨_, hselect h⟩⟩, fun out h => ?_⟩
  obtain rfl := Except.ok.inj ((hselect (hbalanced h)).symm.trans h)
  exact selects_selectedBehind fun l hl => Text.whole_of_mem_lines hl

/-- A condition that was opened and turned where lines do not count leaves those around it alone. -/
example : select (· = "A") ["#ifndef A", "#ifdef A", "1", "#else", "2", "#endif", "#else", "3",
      "#endif"] = .ok ["", "", "", "", "", "", "", "3", ""] := by rfl

end RenderMaterials.Conditional
