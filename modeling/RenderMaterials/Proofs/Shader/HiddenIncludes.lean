import RenderMaterials.Proofs.Shader.SinglePass

/-!
# Shader texts — includes where lines do not count

A file is put in where it is named first.  Where lines do not count, its lines are emptied with those
around it, and a later line that counts does not put it in again: the file is lost.

* `Shader.Closed`: the file leaves the conditions around it as they are.
* `Shader.Reads.unheard`: where lines do not count, nothing that counts is put in.
* `Shader.Reads.compares`: a pass over the include lines that count goes the way of the pass over all
  of them until a file is lost, and from there on puts in a file that the other does not show.
* `Shader.selected_once_iff`: the assembled and selected text is that of the pass over the include
  lines that count, if and only if no file is lost.
-/

namespace RenderMaterials

/-! ### Lines and conditions -/

namespace Text

/-- The lines that hold more than blanks. -/
def nonBlank (ls : List String) : List String := ls.filter fun l => trimChars l.toList ≠ []

@[simp] theorem nonBlank_concat_empty (ls : List String) : nonBlank (ls ++ [""]) = nonBlank ls := by
  simp [nonBlank, trimChars]

theorem nonBlank_concat_congr {ls ls' : List String} (h : nonBlank ls = nonBlank ls') (l : String) :
    nonBlank (ls ++ [l]) = nonBlank (ls' ++ [l]) := by
  rw [nonBlank, nonBlank, List.filter_append, List.filter_append]
  exact congrArg (· ++ _) h

end Text

namespace Conditional

variable {isDefined : String → Bool} {l : String} {n n' m m' : Nat} {outer : List Branch}
  {r : String × List Branch}

@[simp] theorem directive?_bare (l : String) : directive? (Text.bare l) = directive? l := by
  unfold directive?
  rw [Text.trimChars_bare]

/-- No include line is a directive. -/
theorem directive?_of_target {target : String} (h : Include.target? l = some target) :
    directive? l = none := by
  obtain ⟨rest, hrest, -⟩ := Option.bind_eq_some_iff.1 h
  have hl := Text.after?_eq_some_iff.1 hrest
  unfold directive?
  rw [hl]
  rfl

/-- The number of a line counts only in faults. -/
theorem step_renumber {bs : List Branch} (h : step isDefined m bs l = .ok r) :
    step isDefined m' bs l = .ok r := by
  unfold step at h ⊢
  split at h <;> simp_all

/-- How many conditions are open after a line, of `n` before it.  A line does not turn or close a
condition that is not among these. -/
def nesting (n : Nat) (l : String) : Option Nat :=
  match directive? l, n with
  | none,              n     => some n
  | some (.opens _ _), n     => some (n + 1)
  | some .turns,       0     => none
  | some .turns,       n + 1 => some (n + 1)
  | some .closes,      0     => none
  | some .closes,      n + 1 => some n

@[simp] theorem nesting_bare (n : Nat) (l : String) : nesting n (Text.bare l) = nesting n l := by
  unfold nesting
  rw [directive?_bare]

theorem nesting_of_target {target : String} (h : Include.target? l = some target) (n : Nat) :
    nesting n l = some n := by
  unfold nesting
  rw [directive?_of_target h]

/-- A condition in which no line counts, nor around it. -/
def Branch.off : Branch := ⟨false, false⟩

theorem countsIn_off (ho : countsIn outer = false) (n : Nat) :
    countsIn (List.replicate n .off ++ outer) = false := by
  cases n with
  | zero => exact ho
  | succ n => rfl

/-- Where lines do not count, a line is emptied, and the conditions that it opens and closes have no
lines that count. -/
theorem step_off (h : step isDefined m (List.replicate n .off ++ outer) l = .ok r)
    (ho : countsIn outer = false) (hn : nesting n l = some n') :
    r = ("", List.replicate n' .off ++ outer) := by
  have hc := countsIn_off ho n
  unfold step at h
  unfold nesting at hn
  cases hd : directive? l with
  | none =>
      rw [hd] at h hn
      obtain rfl := Option.some.inj hn
      obtain rfl := Except.ok.inj h
      rw [hc]
      rfl
  | some dir =>
      rw [hd] at h hn
      cases dir with
      | opens name defined =>
          obtain rfl := Option.some.inj hn
          obtain rfl := Except.ok.inj h
          rw [hc]
          rfl
      | turns =>
          -- only a condition of those in front is turned
          cases n with
          | zero => cases hn
          | succ n =>
              obtain rfl := Option.some.inj hn
              obtain rfl := Except.ok.inj h
              rfl
      | closes =>
          cases n with
          | zero => cases hn
          | succ n =>
              obtain rfl := Option.some.inj hn
              obtain rfl := Except.ok.inj h
              rfl

namespace Selection

variable {s s' : Selection}

theorem add_eq_ok : s.add isDefined l = .ok s' ↔
    ∃ r, step isDefined (s.lines.length + 1) s.conditions l = .ok r ∧
      s' = ⟨s.lines ++ [r.1], r.2⟩ := by
  unfold add
  cases step isDefined (s.lines.length + 1) s.conditions l with
  | error e => simp [Except.map]
  | ok r => simp [Except.map, eq_comm]

end Selection

end Conditional

namespace Shader

open Include (target?)

/-- A file that opens, turns and closes conditions of its own only, and leaves none open. -/
def Closed (src : Source) (file : String) : Prop :=
  ∃ text, src.readText file = .ok text ∧
    (Text.lines text).foldlM Conditional.nesting 0 = some 0

variable {src : Source} {isDefined : String → Bool} {follows : Follows} {file path : String}
  {ls : List String} {d d' q q' : Draft}

theorem Closed.nesting {text : String} (h : Closed src path) (hr : src.readText path = .ok text) :
    (Text.lines text).foldlM Conditional.nesting 0 = some 0 := by
  obtain ⟨text', hr', hclosed⟩ := h
  obtain rfl := Except.ok.inj (hr.symm.trans hr')
  exact hclosed

/-! ### What grows -/

/-- A draft that another goes on from. -/
structure Draft.Extends (d d' : Draft) : Prop where
  shown  : d.shown ⊆ d'.shown
  hidden : d.hidden ⊆ d'.hidden
  lost   : d.lost ⊆ d'.lost

namespace Draft

theorem enter_counts (h : d.counts = true) (path : String) :
    d.enter path = { d with shown := d.shown ++ [path] } := if_pos h

theorem enter_not_counts (h : d.counts = false) (path : String) :
    d.enter path = { d with hidden := d.hidden ++ [path] } := if_neg (by simp [h])

theorem note_lost (h : d.counts = true) (hp : path ∈ d.hidden) :
    d.note path = { d with lost := d.lost ++ [path] } := if_pos ⟨h, hp⟩

theorem note_not_counts (h : d.counts = false) (path : String) : d.note path = d :=
  if_neg (by simp [h])

theorem note_not_hidden (h : path ∉ d.hidden) : d.note path = d := if_neg (by simp [h])

end Draft

namespace Draft.Extends

theorem refl (d : Draft) : d.Extends d := ⟨fun _ h => h, fun _ h => h, fun _ h => h⟩

theorem trans {d'' : Draft} (h : d.Extends d') (h' : d'.Extends d'') : d.Extends d'' :=
  ⟨List.Subset.trans h.shown h'.shown, List.Subset.trans h.hidden h'.hidden,
    List.Subset.trans h.lost h'.lost⟩

theorem enter (d : Draft) (path : String) : d.Extends (d.enter path) := by
  unfold Draft.enter
  split
  · exact ⟨List.subset_append_left _ _, fun _ h => h, fun _ h => h⟩
  · exact ⟨fun _ h => h, List.subset_append_left _ _, fun _ h => h⟩

theorem note (d : Draft) (path : String) : d.Extends (d.note path) := by
  unfold Draft.note
  split
  · exact ⟨fun _ h => h, fun _ h => h, List.subset_append_left _ _⟩
  · exact refl d

end Draft.Extends

theorem Reads.grows (h : Reads src isDefined follows file ls d d') : d.Extends d' := by
  induction h with
  | nil => exact .refl _
  | text _ _ _ ih => exact ⟨ih.shown, ih.hidden, ih.lost⟩
  | skip _ _ _ ih => exact ih
  | known _ _ _ _ _ ih => exact (Draft.Extends.note _ _).trans ih
  | put _ _ _ _ _ _ _ ih₁ ih₂ =>
      exact ((Draft.Extends.enter _ _).trans ih₁).trans ⟨ih₂.shown, ih₂.hidden, ih₂.lost⟩

/-- A file that is named where its include line is followed is put in, unless it was before. -/
theorem Reads.shown_of_target {l target : String}
    (h : Reads src isDefined .counting file (l :: ls) d d') (ht : target? l = some target)
    (hcount : d.counts = true) (hp : Path.resolveInclude file target = .ok path)
    (hk : ¬ d.Knows path) : path ∈ d'.shown := by
  cases h with
  | text ht' => cases ht.symm.trans ht'
  | skip _ hf => cases hcount.symm.trans hf
  | known ht' _ hp' hk' =>
      obtain rfl := Option.some.inj (ht.symm.trans ht')
      obtain rfl := Except.ok.inj (hp.symm.trans hp')
      exact absurd hk' hk
  | put ht' _ hp' _ _ h₁ h₂ =>
      obtain rfl := Option.some.inj (ht.symm.trans ht')
      obtain rfl := Except.ok.inj (hp.symm.trans hp')
      rw [Draft.enter_counts hcount] at h₁
      exact h₂.grows.shown (h₁.grows.shown (by simp))

/-- No file is both shown and hidden. -/
def Draft.Once (d : Draft) : Prop := ∀ p ∈ d.hidden, p ∉ d.shown

theorem Draft.Once.enter (h : d.Once) (hnew : ¬ d.Knows path) : (d.enter path).Once := by
  unfold Draft.enter
  split
  · intro p hp hin
    rcases List.mem_append.1 hin with hin | hin
    · exact h p hp hin
    · exact hnew (.inr (List.mem_singleton.1 hin ▸ hp))
  · intro p hp hin
    rcases List.mem_append.1 hp with hp | hp
    · exact h p hp hin
    · exact hnew (.inl (List.mem_singleton.1 hp ▸ hin))

theorem Reads.once (h : Reads src isDefined follows file ls d d') (hd : d.Once) : d'.Once := by
  induction h with
  | nil => exact hd
  | text _ _ _ ih => exact ih hd
  | skip _ _ _ ih => exact ih hd
  | @known _ _ _ path _ d _ _ _ _ _ _ ih =>
      refine ih ?_
      unfold Draft.note
      split
      · exact hd
      · exact hd
  | put _ _ _ hk _ _ _ ih₁ ih₂ => exact ih₂ (ih₁ (hd.enter hk))

/-! ### Where lines do not count -/

/-- Nothing that counts is added to a draft. -/
structure Draft.Unheard (d d' : Draft) : Prop where
  lines : Text.nonBlank d'.lines = Text.nonBlank d.lines
  shown : d'.shown = d.shown
  lost  : d'.lost = d.lost

namespace Draft.Unheard

theorem trans {d'' : Draft} (h : d.Unheard d') (h' : d'.Unheard d'') : d.Unheard d'' :=
  ⟨h'.lines.trans h.lines, h'.shown.trans h.shown, h'.lost.trans h.lost⟩

theorem blank (d : Draft) (bs : List Conditional.Branch) :
    d.Unheard (d.select ⟨d.lines ++ [""], bs⟩) := ⟨Text.nonBlank_concat_empty _, rfl, rfl⟩

theorem hide (d : Draft) (path : String) :
    d.Unheard { d with hidden := d.hidden ++ [path] } := ⟨rfl, rfl, rfl⟩

end Draft.Unheard

theorem Draft.not_counts {n : Nat} {outer : List Conditional.Branch}
    (ho : Conditional.countsIn outer = false)
    (hd : d.conditions = List.replicate n .off ++ outer) : d.counts = false := by
  rw [Conditional.Selection.counts, hd]
  exact Conditional.countsIn_off ho n

/-- Where lines do not count, nothing that counts is put in, and the conditions around stay. -/
theorem Reads.unheard {n k : Nat} {outer : List Conditional.Branch}
    (h : Reads src isDefined .all file ls d d') (hc : ∀ p ∈ d'.hidden, Closed src p)
    (ho : Conditional.countsIn outer = false)
    (hd : d.conditions = List.replicate n .off ++ outer)
    (hn : ls.foldlM Conditional.nesting n = some k) :
    d.Unheard d' ∧ d'.conditions = List.replicate k .off ++ outer := by
  -- the conditions of the file itself stand in front of those around it
  induction h generalizing n k outer with
  | nil =>
      obtain rfl := Option.some.inj hn
      exact ⟨⟨rfl, rfl, rfl⟩, hd⟩
  | @text file l ls d d' s ht hs _ ih =>
      rw [List.foldlM_cons] at hn
      obtain ⟨n₁, hl, hn⟩ := Option.bind_eq_some_iff.1 hn
      obtain ⟨r, hr, rfl⟩ := Conditional.Selection.add_eq_ok.1 hs
      rw [hd] at hr
      obtain rfl := Conditional.step_off hr ho ((Conditional.nesting_bare n l).trans hl)
      obtain ⟨hu, hk⟩ := ih hc ho rfl hn
      exact ⟨(Draft.Unheard.blank d _).trans hu, hk⟩
  | skip _ hf => cases hf
  | @known file l target path ls d d' ht _ _ _ _ ih =>
      rw [List.foldlM_cons, Conditional.nesting_of_target ht] at hn
      have hcount := Draft.not_counts ho hd
      rw [Draft.note_not_counts hcount] at ih
      exact ih hc ho hd hn
  | @put file l target path text ls d d₁ d' ht _ _ _ hr h₁ h₂ ih₁ ih₂ =>
      rw [List.foldlM_cons, Conditional.nesting_of_target ht] at hn
      have hcount := Draft.not_counts ho hd
      -- the file is hidden, and closed therefore
      rw [Draft.enter_not_counts hcount] at h₁ ih₁
      have hsub : d₁.hidden ⊆ d'.hidden := h₂.grows.hidden
      have hclosed := (hc path (hsub (h₁.grows.hidden (by simp)))).nesting hr
      obtain ⟨hu₁, hk₁⟩ := ih₁ (fun p hp => hc p (hsub hp)) hcount (n := 0) rfl hclosed
      obtain ⟨hu₂, hk⟩ := ih₂ hc ho (hk₁.trans hd) hn
      exact ⟨(Draft.Unheard.hide d path).trans (hu₁.trans ((Draft.Unheard.blank d₁ _).trans hu₂)), hk⟩

/-! ### Two passes side by side -/

/-- While no file is lost, the pass over all include lines (`d`) and the pass over those that count
(`q`) have the same lines that count and show the same files. -/
structure Draft.Alike (d q : Draft) : Prop where
  conditions : q.conditions = d.conditions
  lines      : Text.nonBlank q.lines = Text.nonBlank d.lines
  shown      : q.shown = d.shown
  hidden     : q.hidden = []
  lost       : d.lost = []
  once       : d.Once

namespace Draft.Alike

variable {l : String} {s : Conditional.Selection}

theorem counts (h : d.Alike q) : q.counts = d.counts := congrArg Conditional.countsIn h.conditions

theorem knows_iff (h : d.Alike q) : q.Knows path ↔ path ∈ d.shown := by
  rw [Draft.Knows, h.shown, h.hidden]
  simp

/-- A line is added to both. -/
theorem text (h : d.Alike q) (hs : d.toSelection.add isDefined l = .ok s) :
    ∃ s', q.toSelection.add isDefined l = .ok s' ∧ (d.select s).Alike (q.select s') := by
  obtain ⟨r, hr, rfl⟩ := Conditional.Selection.add_eq_ok.1 hs
  refine ⟨⟨q.lines ++ [r.1], r.2⟩, Conditional.Selection.add_eq_ok.2 ⟨r, ?_, rfl⟩,
    ⟨rfl, Text.nonBlank_concat_congr h.lines r.1, h.shown, h.hidden, h.lost, h.once⟩⟩
  rw [h.conditions]
  exact Conditional.step_renumber hr

/-- A file is shown in both. -/
theorem enter (h : d.Alike q) (hcount : d.counts = true) (hnew : ¬ d.Knows path) :
    (d.enter path).Alike (q.enter path) := by
  have honce := h.once.enter hnew
  rw [Draft.enter_counts hcount] at honce ⊢
  rw [Draft.enter_counts (h.counts.trans hcount)]
  exact ⟨h.conditions, h.lines, congrArg (· ++ [path]) h.shown, h.hidden, h.lost, honce⟩

theorem mark (h : d.Alike q) : d.mark.Alike q.mark :=
  ⟨h.conditions, Text.nonBlank_concat_congr h.lines "", h.shown, h.hidden, h.lost, h.once⟩

/-- What is put in where lines do not count leaves the two alike. -/
theorem unheard (h : d.Alike q) (hu : d.Unheard d') (hc : d'.conditions = d.conditions)
    (ho : d'.Once) : d'.Alike q :=
  ⟨h.conditions.trans hc.symm, h.lines.trans hu.lines.symm, h.shown.trans hu.shown.symm, h.hidden,
    hu.lost.trans h.lost, ho⟩

end Draft.Alike

/-- Where the pass over the include lines that count comes to from `q`, seen from where the pass over
all of them comes to. -/
inductive Compares (src : Source) (isDefined : String → Bool) (file : String) (ls : List String)
    (q d' : Draft) : Prop
  | alike {q' : Draft} : Reads src isDefined .counting file ls q q' → d'.Alike q' →
      Compares src isDefined file ls q d'
  | parted : d'.lost ≠ [] →
      (∀ q', Reads src isDefined .counting file ls q q' → ∃ p ∈ d'.hidden, p ∈ q'.shown) →
      Compares src isDefined file ls q d'

/-- A line after which the pass over the include lines that count goes on from `q₁`. -/
theorem Compares.cons {l : String} {q₁ : Draft} (h : Compares src isDefined file ls q₁ d')
    (hl : ∀ q', Reads src isDefined .counting file (l :: ls) q q' ↔
      Reads src isDefined .counting file ls q₁ q') :
    Compares src isDefined file (l :: ls) q d' := by
  cases h with
  | alike hq ha => exact .alike ((hl _).2 hq) ha
  | parted hne hp => exact .parted hne fun q' hq => hp q' ((hl q').1 hq)

/-- A file that is shown, and the lines behind its include line. -/
theorem Compares.put {l target text : String} {d₁ : Draft} (ht : target? l = some target)
    (hcount : q.counts = true) (hp : Path.resolveInclude file target = .ok path)
    (hk : ¬ q.Knows path) (hr : src.readText path = .ok text)
    (h₁ : Compares src isDefined path (Text.lines text) (q.enter path) d₁) (he : d₁.Extends d')
    (h₂ : ∀ q₁, d₁.Alike q₁ → Compares src isDefined file ls q₁.mark d') :
    Compares src isDefined file (l :: ls) q d' := by
  have hput (q' : Draft) : Reads src isDefined .counting file (l :: ls) q q' ↔
      ∃ q₁, Reads src isDefined .counting path (Text.lines text) (q.enter path) q₁ ∧
        Reads src isDefined .counting file ls q₁.mark q' := Reads.put_iff ht hcount hp hk hr
  cases h₁ with
  | parted hne hpart =>
      have hne' : d'.lost ≠ [] := fun hl => hne (List.subset_nil.1 (hl ▸ he.lost))
      refine .parted hne' fun q' hq => ?_
      obtain ⟨q₁, hq₁, hq₂⟩ := (hput q').1 hq
      obtain ⟨p, hhid, hshown⟩ := hpart q₁ hq₁
      exact ⟨p, he.hidden hhid, hq₂.grows.shown hshown⟩
  | @alike q₁ hq₁ ha₁ =>
      refine (h₂ q₁ ha₁).cons fun q' => (hput q').trans ⟨?_, fun hq => ⟨q₁, hq₁, hq⟩⟩
      rintro ⟨q₂, hq₂, hq⟩
      obtain rfl := hq₁.unique hq₂
      exact hq

/-- The two passes go the same way, until a file is lost. -/
theorem Reads.compares (h : Reads src isDefined .all file ls d d')
    (hc : ∀ p ∈ d'.hidden, Closed src p) (ha : d.Alike q) :
    Compares src isDefined file ls q d' := by
  induction h generalizing q with
  | nil => exact .alike .nil ha
  | text ht hs _ ih =>
      obtain ⟨s', hs', ha'⟩ := ha.text hs
      exact (ih hc ha').cons fun q' => text_iff ht hs'
  | skip _ hf => cases hf
  | @known file l target path ls d d' ht _ hp hk h ih =>
      cases hcount : d.counts with
      | false =>
          rw [Draft.note_not_counts hcount] at ih
          exact (ih hc ha).cons fun q' => skip_iff ht (ha.counts.trans hcount)
      | true =>
          have htakes : Follows.counting.takes q.counts = true := ha.counts.trans hcount
          by_cases hin : path ∈ d.hidden
          · -- the file was put in where lines do not count, and is put in again by the other pass
            rw [Draft.note_lost hcount hin] at h
            refine .parted (List.ne_nil_of_mem (h.grows.lost (by simp : path ∈ _))) fun q' hq => ?_
            exact ⟨path, h.grows.hidden hin,
              hq.shown_of_target ht htakes hp fun hkq => ha.once path hin (ha.knows_iff.1 hkq)⟩
          · rw [Draft.note_not_hidden hin] at ih
            refine (ih hc ha).cons fun q' => ?_
            have hkq : q.Knows path := ha.knows_iff.2 (hk.resolve_right hin)
            rw [known_iff ht htakes hp hkq, Draft.note_not_hidden (by simp [ha.hidden])]
  | @put file l target path text ls d d₁ d' ht _ hp hk hr h₁ h₂ ih₁ ih₂ =>
      have hsub : d₁.hidden ⊆ d'.hidden := h₂.grows.hidden
      have hc₁ : ∀ p ∈ d₁.hidden, Closed src p := fun p hp => hc p (hsub hp)
      cases hcount : d.counts with
      | false =>
          -- the file is hidden: the other pass skips its line
          have honce := h₁.once (ha.once.enter hk)
          rw [Draft.enter_not_counts hcount] at h₁
          have hclosed := (hc₁ path (h₁.grows.hidden (by simp))).nesting hr
          obtain ⟨hu, hcond⟩ := h₁.unheard hc₁ hcount (n := 0) rfl hclosed
          have hu' := (Draft.Unheard.hide d path).trans (hu.trans (.blank d₁ d₁.conditions))
          exact (ih₂ hc (ha.unheard hu' hcond honce)).cons fun q' =>
            skip_iff ht (ha.counts.trans hcount)
      | true =>
          -- the file is shown by both
          have hkq : ¬ q.Knows path := fun hkq => hk (.inl (ha.knows_iff.1 hkq))
          exact .put ht (ha.counts.trans hcount) hp hkq hr (ih₁ hc₁ (ha.enter hcount hk))
            ⟨h₂.grows.shown, hsub, h₂.grows.lost⟩ fun q₁ ha₁ => ih₂ hc ha₁.mark

/-- **The text of the two passes is that of the single pass that follows the include lines that count,
if and only if no file is lost.**  The files that are put in where lines do not count are closed. -/
theorem selected_once_iff {out : List String} (ha : assemble src file = .ok ls)
    (hs : Conditional.select isDefined ls = .ok out) :
    ∃ d, ReadsAs src isDefined .all file d ∧ d.lines = out ∧
      ((∀ p ∈ d.hidden, Closed src p) →
        ((∃ q, ReadsAs src isDefined .counting file q ∧ q.shown = d.shown ∧
            Text.nonBlank q.lines = Text.nonBlank out) ↔
          d.lost = [])) := by
  obtain ⟨d, hd, rfl⟩ := reads_of_select ha hs
  refine ⟨d, hd, rfl, fun hc => ?_⟩
  obtain ⟨text, ht, hr, hend⟩ := hd
  have hstart : Draft.Alike { shown := [file] } { shown := [file] } :=
    ⟨rfl, rfl, rfl, rfl, rfl, fun p hp => absurd hp (by simp)⟩
  cases hr.compares hc hstart with
  | alike hq hal =>
      exact iff_of_true ⟨_, ⟨text, ht, hq, hal.conditions.trans hend⟩, hal.shown, hal.lines⟩ hal.lost
  | parted hne hpart =>
      refine iff_of_false (fun ⟨q, ⟨text', ht', hq, _⟩, hshown, _⟩ => ?_) hne
      obtain rfl := Except.ok.inj (ht.symm.trans ht')
      obtain ⟨p, hhid, hin⟩ := hpart q hq
      exact hr.once hstart.once p hhid (hshown ▸ hin)

namespace HiddenFirst

/-- A line that names a file with an entry point. -/
def includeLine : String := "#include \"common.wgsl\""

/-- The line of that file. -/
def entryLine : String := "@fragment fn ps() \x7b\x7d"

/-- The lines of a shader that names the file where lines do not count. -/
def linesTo (last : String) : List String := ["#ifdef OFF", includeLine, "#endif", last]

/-- Two such shaders: one has an entry point of its own, and the other names the file again. -/
def files : Source :=
  (((({} : MemorySource).insertText "common.wgsl" (Text.unlines [entryLine])).insertText
    "flat.wgsl" (Text.unlines (linesTo entryLine))).insertText
    "lit.wgsl" (Text.unlines (linesTo includeLine))).toSource

def defined : String → Bool := (Define.environment .pixel []).has

theorem readTexts : files.readText "common.wgsl" = .ok (Text.unlines [entryLine]) ∧
    files.readText "flat.wgsl" = .ok (Text.unlines (linesTo entryLine)) ∧
    files.readText "lit.wgsl" = .ok (Text.unlines (linesTo includeLine)) := by decide +kernel

theorem lines_common : Text.lines (Text.unlines [entryLine]) = [entryLine] := rfl

theorem target_include : target? includeLine = some "common.wgsl" := rfl

theorem closed_common : Closed files "common.wgsl" :=
  ⟨_, readTexts.1, by rw [lines_common]; rfl⟩

/-- The first line opens a condition that does not hold. -/
theorem opens_off : ({} : Conditional.Selection).add defined (Text.bare "#ifdef OFF") =
    .ok ⟨[""], [⟨false, true⟩]⟩ := by decide +kernel

/-- The line of the file is read, whether it counts or not. -/
theorem reads_common {s : Conditional.Selection}
    (hs : d.toSelection.add defined (Text.bare entryLine) = .ok s) :
    Reads files defined follows "common.wgsl" (Text.lines (Text.unlines [entryLine])) d
      (d.select s) := by
  rw [lines_common]
  exact .text rfl hs .nil

theorem reads_flat : ReadsAs files defined .all "flat.wgsl"
    { lines := ["", "", "", "", entryLine], shown := ["flat.wgsl"], hidden := ["common.wgsl"] } := by
  have hlines : Text.lines (Text.unlines (linesTo entryLine)) = linesTo entryLine := rfl
  refine ⟨_, readTexts.2.1, ?_, rfl⟩
  rw [hlines]
  refine .text rfl opens_off ?_
  -- the file is put in, and its line is emptied
  refine .put target_include rfl (by rfl) (by simp [Draft.Knows, Draft.select]) readTexts.1
    (reads_common (s := ⟨["", ""], [⟨false, true⟩]⟩) rfl) ?_
  refine .text (s := ⟨["", "", "", ""], []⟩) rfl rfl ?_
  exact .text (s := ⟨["", "", "", "", entryLine], []⟩) rfl rfl .nil

theorem reads_lit : ReadsAs files defined .counting "lit.wgsl"
    { lines := ["", "", entryLine, ""], shown := ["lit.wgsl", "common.wgsl"] } := by
  have hlines : Text.lines (Text.unlines (linesTo includeLine)) = linesTo includeLine := rfl
  refine ⟨_, readTexts.2.2, ?_, rfl⟩
  rw [hlines]
  refine .text rfl opens_off ?_
  refine .skip target_include rfl ?_
  refine .text (s := ⟨["", ""], []⟩) rfl rfl ?_
  exact .put target_include rfl (by rfl) (by simp [Draft.Knows, Draft.select]) readTexts.1
    (reads_common (s := ⟨["", "", entryLine], []⟩) rfl) .nil

/-- The two passes over each of the shaders. -/
theorem selected :
    (assemble files "flat.wgsl" = .ok ["#ifdef OFF", entryLine, "", "#endif", entryLine] ∧
      Conditional.select defined ["#ifdef OFF", entryLine, "", "#endif", entryLine] =
        .ok ["", "", "", "", entryLine]) ∧
    assemble files "lit.wgsl" = .ok ["#ifdef OFF", entryLine, "", "#endif"] ∧
      Conditional.select defined ["#ifdef OFF", entryLine, "", "#endif"] = .ok ["", "", "", ""] := by
  decide +kernel

/-- An entry point is lost, whose file a line that counts names. -/
theorem entry_lost : ¬ ∀ (src : Source) (isDefined : String → Bool) (file : String)
    (ls out : List String), assemble src file = .ok ls → Conditional.select isDefined ls = .ok out →
    ∃ q, ReadsAs src isDefined .counting file q ∧ Text.nonBlank q.lines = Text.nonBlank out := by
  intro h
  obtain ⟨-, ha, hs⟩ := selected
  obtain ⟨q, hq, hlines⟩ := h files defined "lit.wgsl" _ _ ha hs
  obtain rfl := hq.unique reads_lit
  have hshown : Text.nonBlank ["", "", entryLine, ""] = [entryLine] := rfl
  exact List.cons_ne_nil entryLine [] (hshown.symm.trans hlines)

/-- Nothing is lost of a shader that does not name the file again. -/
theorem flat_selected : ∃ q, ReadsAs files defined .counting "flat.wgsl" q ∧
    q.shown = ["flat.wgsl"] ∧ Text.nonBlank q.lines = [entryLine] := by
  obtain ⟨⟨ha, hs⟩, -⟩ := selected
  obtain ⟨d, hd, -, h⟩ := selected_once_iff ha hs
  obtain rfl := hd.unique reads_flat
  obtain ⟨q, hq, hshown, hlines⟩ := (h fun p hp => List.mem_singleton.1 hp ▸ closed_common).2 rfl
  exact ⟨q, hq, hshown, hlines⟩

end HiddenFirst

end Shader

end RenderMaterials
