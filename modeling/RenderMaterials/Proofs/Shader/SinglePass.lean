import RenderMaterials.Proofs.Shader.Footprint
import RenderMaterials.Shader.Conditional

/-!
# Shader texts — includes and conditions in a single pass

A shader's text is made in two passes: first every include is put in, and then the lines that do not
count are emptied.  The text can be told in a single pass over the files as well, which knows at each
line which conditions are open there.

* `Include.Expands`: the rules by which includes are put in; `expands_of_expandInto`: they are those
  of the assembly.
* `Conditional.Selection`: lines are selected one by one.
* `Shader.Reads`: the rules of the single pass.  It follows either all include lines, or those that
  count; `Reads.text_iff`, `skip_iff`, `known_iff`, `put_iff`: what is behind a line;
  `Reads.unique`: there is one such pass.
* `Shader.reads_of_select`: the two passes give the text of the single pass that follows all include
  lines, whether they count or not.
-/

namespace RenderMaterials

/-! ### Lines -/

namespace Text

/-- A line that is written and read again: without a carriage return at its end. -/
def bare (l : String) : String := String.ofList (withoutReturn l.toList)

/-- A blank at the end does not count. -/
theorem trimChars_concat {c : Char} (hc : isBlank c = true) (cs : List Char) :
    trimChars (cs ++ [c]) = trimChars cs := by
  unfold trimChars
  rw [List.dropWhile_append]
  split
  · rename_i he
    rw [List.isEmpty_iff.1 he]
    simp [hc]
  · simp [hc]

theorem trimChars_withoutReturn (cs : List Char) : trimChars (withoutReturn cs) = trimChars cs := by
  unfold withoutReturn
  split
  · rename_i h
    obtain ⟨cs, rfl⟩ := List.getLast?_eq_some_iff.1 h
    rw [List.dropLast_concat, trimChars_concat (by decide)]
  · rfl

theorem trimChars_bare (l : String) : trimChars (bare l).toList = trimChars l.toList := by
  rw [bare, String.toList_ofList, trimChars_withoutReturn]

/-- No line feed is in a line. -/
def Whole (l : String) : Prop := ∀ c ∈ l.toList, c ≠ '\n'

theorem linesOfPieces_append_nil (ps : List (List Char)) :
    linesOfPieces (ps ++ [[]]) = ps.map withoutReturn := by
  induction ps with
  | nil => rfl
  | cons p ps ih =>
      cases ps with
      | nil => rfl
      | cons q ps =>
          rw [List.map_cons, ← ih]
          rfl

theorem splitBy_flatMap {ls : List String} (h : ∀ l ∈ ls, Whole l) :
    splitBy (· = '\n') (ls.flatMap fun l => l.toList ++ ['\n']) = ls.map String.toList ++ [[]] := by
  induction ls with
  | nil => rfl
  | cons l ls ih =>
      have hl : ∀ c ∈ l.toList, decide (c = '\n') = false := by simpa [Whole] using h l (by simp)
      rw [List.flatMap_cons, List.append_assoc, List.singleton_append,
        splitBy_piece_append hl (by simp), ih fun l' hl' => h l' (by simp [hl'])]
      rfl

/-- Lines that are put together with line feeds are found again. -/
theorem lines_unlines {ls : List String} (h : ∀ l ∈ ls, Whole l) :
    lines (unlines ls) = ls.map bare := by
  have hjoin : (unlines ls).toList = ls.flatMap fun l => l.toList ++ ['\n'] := by
    rw [unlines, String.toList_join, List.flatMap_map]
    simp
  rw [lines, hjoin, splitBy_flatMap h, linesOfPieces_append_nil]
  simp [bare, Function.comp_def]

theorem exists_piece_of_mem_linesOfPieces {ps : List (List Char)} {l : List Char}
    (h : l ∈ linesOfPieces ps) : ∃ p ∈ ps, l ⊆ p := by
  induction ps with
  | nil => cases h
  | cons p ps ih =>
      cases ps with
      | nil =>
          unfold linesOfPieces at h
          split at h
          · cases h
          · exact ⟨p, by simp, by simp [List.mem_singleton.1 h]⟩
      | cons q ps =>
          rcases List.mem_cons.1 h with rfl | h
          · refine ⟨p, by simp, ?_⟩
            unfold withoutReturn
            split
            · exact List.dropLast_subset p
            · exact List.Subset.refl p
          · obtain ⟨p', hp', hl⟩ := ih h
            exact ⟨p', List.mem_cons_of_mem p hp', hl⟩

/-- The lines of a text are whole. -/
theorem whole_of_mem_lines {text l : String} (h : l ∈ lines text) : Whole l := by
  obtain ⟨cs, hcs, rfl⟩ := List.mem_map.1 h
  obtain ⟨p, hp, hsub⟩ := exists_piece_of_mem_linesOfPieces hcs
  intro c hc
  have hp' := not_sep_of_mem_splitBy (· = '\n') text.toList p hp c
    (hsub (by rwa [String.toList_ofList] at hc))
  simpa using hp'

end Text

/-! ### Putting includes in -/

namespace Include

variable {src : Source} {file text : String} {ls : List String} {a a' : Assembly} {more : Nat}

@[simp] theorem target?_bare (l : String) : target? (Text.bare l) = target? l := by
  rw [target?, target?, Text.trimChars_bare]

/-- The rules by which the lines of a file are added to an assembly. -/
inductive Expands (src : Source) : String → List String → Assembly → Assembly → Prop
  | nil {file : String} {a : Assembly} : Expands src file [] a a
  | text {file l : String} {ls : List String} {a a' : Assembly} :
      target? l = none → Expands src file ls (a.push l) a' → Expands src file (l :: ls) a a'
  | known {file l target path : String} {ls : List String} {a a' : Assembly} :
      target? l = some target → Path.resolveInclude file target = .ok path → path ∈ a.files →
      Expands src file ls a a' → Expands src file (l :: ls) a a'
  | put {file l target path text : String} {ls : List String} {a a₁ a' : Assembly} :
      target? l = some target → Path.resolveInclude file target = .ok path → path ∉ a.files →
      src.readText path = .ok text → Expands src path (Text.lines text) (a.enter path) a₁ →
      Expands src file ls (a₁.push "") a' → Expands src file (l :: ls) a a'

theorem expands_of_foldlM (hrec : ∀ k path text b b', more = k + 1 →
      expandInto src k path text b = .ok b' → Expands src path (Text.lines text) b b')
    (h : ls.foldlM (line src more file) a = .ok a') : Expands src file ls a a' := by
  induction ls generalizing a with
  | nil =>
      obtain rfl := Except.ok.inj h
      exact .nil
  | cons l ls ih =>
      rw [List.foldlM_cons, Result.bind_eq_ok] at h
      obtain ⟨a₁, hl, h⟩ := h
      obtain ⟨ht, rfl⟩ | ⟨target, path, ht, hp, ⟨hin, rfl⟩ | ⟨hnew, text, k, a₂, hr, hk, ha, rfl⟩⟩ :=
        line_eq_ok.1 hl
      · exact .text ht (ih h)
      · exact .known ht hp hin (ih h)
      · exact .put ht hp hnew hr (hrec k path text _ a₂ hk ha) (ih h)

/-- An assembly follows the rules. -/
theorem expands_of_expandInto (h : expandInto src more file text a = .ok a') :
    Expands src file (Text.lines text) a a' := by
  induction more generalizing file text a a' with
  | zero =>
      rw [expandInto_eq] at h
      exact expands_of_foldlM (fun k _ _ _ _ hk => absurd hk (by simp)) h
  | succ more ih =>
      rw [expandInto_eq] at h
      refine expands_of_foldlM (fun k path text b b' hk hb => ?_) h
      obtain rfl := Nat.succ.inj hk
      exact ih hb

namespace Expands

theorem prefix_lines (h : Expands src file ls a a') : a.lines <+: a'.lines := by
  induction h with
  | nil => exact List.prefix_refl _
  | text _ _ ih => exact (List.prefix_append _ _).trans ih
  | known _ _ _ _ ih => exact ih
  | put _ _ _ _ _ _ ih₁ ih₂ => exact ih₁.trans ((List.prefix_append _ _).trans ih₂)

/-- Whole lines are added, if the lines of the file are whole. -/
theorem whole (h : Expands src file ls a a') (hls : ∀ l ∈ ls, Text.Whole l)
    (ha : ∀ l ∈ a.lines, Text.Whole l) : ∀ l ∈ a'.lines, Text.Whole l := by
  induction h with
  | nil => exact ha
  | text _ _ ih =>
      refine ih (fun l hl => hls l (by simp [hl])) fun l hl => ?_
      rcases List.mem_append.1 hl with hl | hl
      · exact ha l hl
      · exact List.mem_singleton.1 hl ▸ hls _ (by simp)
  | known _ _ _ _ ih => exact ih (fun l hl => hls l (by simp [hl])) ha
  | put _ _ _ _ _ _ ih₁ ih₂ =>
      refine ih₂ (fun l hl => hls l (by simp [hl])) fun l hl => ?_
      rcases List.mem_append.1 hl with hl | hl
      · exact ih₁ (fun l hl => Text.whole_of_mem_lines hl) ha l hl
      · rw [List.mem_singleton.1 hl]
        exact fun c hc => absurd hc (by simp)

end Expands

end Include

/-! ### Selecting lines -/

namespace Conditional

variable {isDefined : String → Bool}

/-- A text under selection: its lines so far, those that do not count emptied, and the conditions
that are open. -/
structure Selection where
  lines      : List String := []
  conditions : List Branch := []
  deriving DecidableEq, Repr

namespace Selection

/-- Whether lines count. -/
def counts (s : Selection) : Bool := countsIn s.conditions

/-- Adds a line, or an empty one in its place. -/
def add (isDefined : String → Bool) (s : Selection) (l : String) : Except CompileFault Selection :=
  (step isDefined (s.lines.length + 1) s.conditions l).map fun r => ⟨s.lines ++ [r.1], r.2⟩

/-- An empty line stays empty. -/
theorem add_empty (s : Selection) : s.add isDefined "" = .ok { s with lines := s.lines ++ [""] } := by
  have hd : directive? "" = none := rfl
  have hs : step isDefined (s.lines.length + 1) s.conditions "" = .ok ("", s.conditions) := by
    simp [step, hd]
  rw [add, hs]
  rfl

end Selection

theorem selectFrom_cons (n : Nat) (bs : List Branch) (l : String) (ls : List String) :
    selectFrom isDefined n bs (l :: ls) = step isDefined n bs l >>= fun r =>
      selectFrom isDefined (n + 1) r.2 ls >>= fun rest => .ok (r.1 :: rest) := by
  cases bs <;> rfl

theorem foldlM_of_selectFrom {s : Selection} {ls out : List String}
    (h : selectFrom isDefined (s.lines.length + 1) s.conditions ls = .ok out) :
    ls.foldlM (Selection.add isDefined) s = .ok ⟨s.lines ++ out, []⟩ := by
  induction ls generalizing s out with
  | nil =>
      obtain ⟨lines, conditions⟩ := s
      cases conditions with
      | nil =>
          obtain rfl := Except.ok.inj h
          simp
      | cons b bs => cases h
  | cons l ls ih =>
      rw [selectFrom_cons, Result.bind_eq_ok] at h
      obtain ⟨r, hr, h⟩ := h
      obtain ⟨rest, hrest, h⟩ := Result.bind_eq_ok.1 h
      obtain rfl := Except.ok.inj h
      have hadd : s.add isDefined l = .ok ⟨s.lines ++ [r.1], r.2⟩ := by
        rw [Selection.add, hr]
        rfl
      rw [List.foldlM_cons, hadd, Result.ok_bind,
        ih (s := ⟨s.lines ++ [r.1], r.2⟩) (by simpa using hrest)]
      simp

/-- The lines of a text are selected one by one, and no condition is open at the end. -/
theorem foldlM_of_select {ls out : List String} (h : select isDefined ls = .ok out) :
    ls.foldlM (Selection.add isDefined) {} = .ok ⟨out, []⟩ :=
  foldlM_of_selectFrom (s := {}) h

end Conditional

/-! ### A single pass -/

namespace Shader

open Include (target?)

/-- The include lines that a single pass follows: all of them, or those that count. -/
inductive Follows where
  | all
  | counting
  deriving DecidableEq, Repr

/-- Whether an include line is followed. -/
def Follows.takes : Follows → Bool → Bool
  | all,      _      => true
  | counting, counts => counts

/-- A text that is made in a single pass: its lines so far, the conditions that are open, and the
files that were put in, the shader's own first. -/
structure Draft extends Conditional.Selection where
  /-- The files that were put in where lines count. -/
  shown  : List String
  /-- The files that were put in where lines do not count. -/
  hidden : List String := []
  /-- The hidden files that a line that counts names later. -/
  lost   : List String := []

namespace Draft

/-- The draft with other lines. -/
def select (d : Draft) (s : Conditional.Selection) : Draft := { d with toSelection := s }

/-- Adds a file, whose lines are to come. -/
def enter (d : Draft) (path : String) : Draft :=
  if d.counts then { d with shown := d.shown ++ [path] }
  else { d with hidden := d.hidden ++ [path] }

/-- Names a file that was put in before. -/
def note (d : Draft) (path : String) : Draft :=
  if d.counts = true ∧ path ∈ d.hidden then { d with lost := d.lost ++ [path] } else d

/-- Marks the end of what was put in. -/
def mark (d : Draft) : Draft := d.select { d.toSelection with lines := d.lines ++ [""] }

/-- Whether a file was put in. -/
def Knows (d : Draft) (path : String) : Prop := path ∈ d.shown ∨ path ∈ d.hidden

end Draft

variable {src : Source} {isDefined : String → Bool} {follows : Follows} {file : String}
  {ls : List String} {d d' : Draft}

/-- The rules by which the lines of a file are added to a draft, conditions and includes at once. -/
inductive Reads (src : Source) (isDefined : String → Bool) (follows : Follows) :
    String → List String → Draft → Draft → Prop
  | nil {file : String} {d : Draft} : Reads src isDefined follows file [] d d
  | text {file l : String} {ls : List String} {d d' : Draft} {s : Conditional.Selection} :
      target? l = none → d.toSelection.add isDefined (Text.bare l) = .ok s →
      Reads src isDefined follows file ls (d.select s) d' →
      Reads src isDefined follows file (l :: ls) d d'
  | skip {file l target : String} {ls : List String} {d d' : Draft} :
      target? l = some target → follows.takes d.counts = false →
      Reads src isDefined follows file ls d d' → Reads src isDefined follows file (l :: ls) d d'
  | known {file l target path : String} {ls : List String} {d d' : Draft} :
      target? l = some target → follows.takes d.counts = true →
      Path.resolveInclude file target = .ok path → d.Knows path →
      Reads src isDefined follows file ls (d.note path) d' →
      Reads src isDefined follows file (l :: ls) d d'
  | put {file l target path text : String} {ls : List String} {d d₁ d' : Draft} :
      target? l = some target → follows.takes d.counts = true →
      Path.resolveInclude file target = .ok path → ¬ d.Knows path →
      src.readText path = .ok text →
      Reads src isDefined follows path (Text.lines text) (d.enter path) d₁ →
      Reads src isDefined follows file ls d₁.mark d' →
      Reads src isDefined follows file (l :: ls) d d'

/-- A shader's text in a single pass: no condition is open at the end. -/
def ReadsAs (src : Source) (isDefined : String → Bool) (follows : Follows) (file : String)
    (d : Draft) : Prop :=
  ∃ text, src.readText file = .ok text ∧
    Reads src isDefined follows file (Text.lines text) { shown := [file] } d ∧ d.conditions = []

namespace Reads

variable {l target path text : String} {s : Conditional.Selection}

theorem text_iff (ht : target? l = none) (hs : d.toSelection.add isDefined (Text.bare l) = .ok s) :
    Reads src isDefined follows file (l :: ls) d d' ↔
      Reads src isDefined follows file ls (d.select s) d' := by
  refine ⟨fun h => ?_, .text ht hs⟩
  cases h with
  | text _ hs' h =>
      obtain rfl := Except.ok.inj (hs.symm.trans hs')
      exact h
  | skip ht' | known ht' | put ht' => cases ht.symm.trans ht'

theorem skip_iff (ht : target? l = some target) (hf : follows.takes d.counts = false) :
    Reads src isDefined follows file (l :: ls) d d' ↔ Reads src isDefined follows file ls d d' := by
  refine ⟨fun h => ?_, .skip ht hf⟩
  cases h with
  | text ht' => cases ht.symm.trans ht'
  | skip _ _ h => exact h
  | known _ hf' | put _ hf' => cases hf.symm.trans hf'

theorem known_iff (ht : target? l = some target) (hf : follows.takes d.counts = true)
    (hp : Path.resolveInclude file target = .ok path) (hk : d.Knows path) :
    Reads src isDefined follows file (l :: ls) d d' ↔
      Reads src isDefined follows file ls (d.note path) d' := by
  refine ⟨fun h => ?_, .known ht hf hp hk⟩
  cases h with
  | text ht' => cases ht.symm.trans ht'
  | skip _ hf' => cases hf.symm.trans hf'
  | known ht' _ hp' _ h =>
      obtain rfl := Option.some.inj (ht.symm.trans ht')
      obtain rfl := Except.ok.inj (hp.symm.trans hp')
      exact h
  | put ht' _ hp' hk' =>
      obtain rfl := Option.some.inj (ht.symm.trans ht')
      obtain rfl := Except.ok.inj (hp.symm.trans hp')
      exact absurd hk hk'

theorem put_iff (ht : target? l = some target) (hf : follows.takes d.counts = true)
    (hp : Path.resolveInclude file target = .ok path) (hk : ¬ d.Knows path)
    (hr : src.readText path = .ok text) :
    Reads src isDefined follows file (l :: ls) d d' ↔
      ∃ d₁, Reads src isDefined follows path (Text.lines text) (d.enter path) d₁ ∧
        Reads src isDefined follows file ls d₁.mark d' := by
  refine ⟨fun h => ?_, fun ⟨_, h₁, h₂⟩ => .put ht hf hp hk hr h₁ h₂⟩
  cases h with
  | text ht' => cases ht.symm.trans ht'
  | skip _ hf' => cases hf.symm.trans hf'
  | known ht' _ hp' hk' =>
      obtain rfl := Option.some.inj (ht.symm.trans ht')
      obtain rfl := Except.ok.inj (hp.symm.trans hp')
      exact absurd hk' hk
  | put ht' _ hp' _ hr' h₁ h₂ =>
      obtain rfl := Option.some.inj (ht.symm.trans ht')
      obtain rfl := Except.ok.inj (hp.symm.trans hp')
      obtain rfl := Except.ok.inj (hr.symm.trans hr')
      exact ⟨_, h₁, h₂⟩

/-- There is one single pass. -/
theorem unique {d'' : Draft} (h : Reads src isDefined follows file ls d d')
    (h' : Reads src isDefined follows file ls d d'') : d' = d'' := by
  induction h generalizing d'' with
  | nil =>
      cases h'
      rfl
  | text ht hs _ ih => exact ih ((text_iff ht hs).1 h')
  | skip ht hf _ ih => exact ih ((skip_iff ht hf).1 h')
  | known ht hf hp hk _ ih => exact ih ((known_iff ht hf hp hk).1 h')
  | put ht hf hp hk hr _ _ ih₁ ih₂ =>
      obtain ⟨d₁, h₁, h₂⟩ := (put_iff ht hf hp hk hr).1 h'
      obtain rfl := ih₁ h₁
      exact ih₂ h₂

end Reads

theorem ReadsAs.unique {d'' : Draft} (h : ReadsAs src isDefined follows file d)
    (h' : ReadsAs src isDefined follows file d'') : d = d'' := by
  obtain ⟨text, ht, hd, -⟩ := h
  obtain ⟨text', ht', hd', -⟩ := h'
  obtain rfl := Except.ok.inj (ht.symm.trans ht')
  exact hd.unique hd'

/-! ### Two passes in one -/

variable {a a' : Include.Assembly}

/-- A draft is what an assembly is selected to, and both know the same files. -/
structure Agrees (isDefined : String → Bool) (a : Include.Assembly) (d : Draft) : Prop where
  selected : (a.lines.map Text.bare).foldlM (Conditional.Selection.add isDefined) {} =
    .ok d.toSelection
  files    : ∀ path, path ∈ a.files ↔ d.Knows path

namespace Agrees

theorem push {l : String} {s : Conditional.Selection} (h : Agrees isDefined a d)
    (hs : d.toSelection.add isDefined (Text.bare l) = .ok s) :
    Agrees isDefined (a.push l) (d.select s) := by
  refine ⟨?_, h.files⟩
  rw [Include.Assembly.push, List.map_append, List.foldlM_append, h.selected, Result.ok_bind,
    List.map_singleton, List.foldlM_cons, hs]
  rfl

theorem mark (h : Agrees isDefined a d) : Agrees isDefined (a.push "") d.mark :=
  h.push (Conditional.Selection.add_empty d.toSelection)

theorem enter (h : Agrees isDefined a d) (path : String) :
    Agrees isDefined (a.enter path) (d.enter path) := by
  unfold Draft.enter
  split
  · refine ⟨h.selected, fun p => ?_⟩
    have := h.files p
    simp only [Include.Assembly.enter, Draft.Knows, List.mem_append] at this ⊢
    tauto
  · refine ⟨h.selected, fun p => ?_⟩
    have := h.files p
    simp only [Include.Assembly.enter, Draft.Knows, List.mem_append] at this ⊢
    tauto

theorem note (h : Agrees isDefined a d) (path : String) : Agrees isDefined a (d.note path) := by
  unfold Draft.note
  split
  · exact ⟨h.selected, h.files⟩
  · exact h

/-- While an assembly can be selected, the single pass adds the same lines. -/
theorem reads (hx : Include.Expands src file ls a a') (h : Agrees isDefined a d)
    (hok : ∃ s, (a'.lines.map Text.bare).foldlM (Conditional.Selection.add isDefined) {} = .ok s) :
    ∃ d', Reads src isDefined .all file ls d d' ∧ Agrees isDefined a' d' := by
  induction hx generalizing d with
  | nil => exact ⟨d, .nil, h⟩
  | @text file l ls a a' ht hx ih =>
      -- the line can be selected, as it is among those of the whole
      obtain ⟨s, hs⟩ : ∃ s, d.toSelection.add isDefined (Text.bare l) = .ok s := by
        obtain ⟨rest, hrest⟩ := hx.prefix_lines
        obtain ⟨s', hs'⟩ := hok
        rw [← hrest, List.map_append, List.foldlM_append, Result.bind_eq_ok] at hs'
        obtain ⟨s, hs, -⟩ := hs'
        rw [Include.Assembly.push, List.map_append, List.foldlM_append, h.selected, Result.ok_bind,
          List.map_singleton, List.foldlM_cons, Result.bind_eq_ok] at hs
        obtain ⟨s₁, hs₁, -⟩ := hs
        exact ⟨s₁, hs₁⟩
      obtain ⟨d', hd', ha'⟩ := ih (h.push hs) hok
      exact ⟨d', .text ht hs hd', ha'⟩
  | known ht hp hin hx ih =>
      obtain ⟨d', hd', ha'⟩ := ih (h.note _) hok
      exact ⟨d', .known ht rfl hp ((h.files _).1 hin) hd', ha'⟩
  | @put file l target path text ls a a₁ a' ht hp hnew hr hx₁ hx₂ ih₁ ih₂ =>
      have hok₁ : ∃ s, (a₁.lines.map Text.bare).foldlM (Conditional.Selection.add isDefined) {} =
          .ok s := by
        obtain ⟨rest, hrest⟩ := (List.prefix_append a₁.lines [""]).trans hx₂.prefix_lines
        obtain ⟨s', hs'⟩ := hok
        rw [← hrest, List.map_append, List.foldlM_append, Result.bind_eq_ok] at hs'
        obtain ⟨s, hs, -⟩ := hs'
        exact ⟨s, hs⟩
      obtain ⟨d₁, hd₁, ha₁⟩ := ih₁ (h.enter path) hok₁
      obtain ⟨d', hd', ha'⟩ := ih₂ ha₁.mark hok
      exact ⟨d', .put ht rfl hp (fun hk => hnew ((h.files _).2 hk)) hr hd₁ hd', ha'⟩

end Agrees

/-- What the two passes give is the text of the single pass that follows every include line. -/
theorem reads_of_select {out : List String} (ha : assemble src file = .ok ls)
    (hs : Conditional.select isDefined ls = .ok out) :
    ∃ d, ReadsAs src isDefined .all file d ∧ d.lines = out := by
  obtain ⟨text, a, ht, hx, rfl⟩ := assemble_eq_ok.1 ha
  have hx' := Include.expands_of_expandInto hx
  have hwhole := hx'.whole (fun l hl => Text.whole_of_mem_lines hl) (by simp)
  rw [Text.lines_unlines hwhole] at hs
  have hsel := Conditional.foldlM_of_select hs
  have hstart : Agrees isDefined { files := [file] } { shown := [file] } :=
    ⟨rfl, fun path => by simp [Draft.Knows]⟩
  obtain ⟨d, hd, hagree⟩ := Agrees.reads hx' hstart ⟨_, hsel⟩
  have he : d.toSelection = ⟨out, []⟩ := Except.ok.inj (hagree.selected.symm.trans hsel)
  exact ⟨d, ⟨text, ht, hd, by rw [he]⟩, by rw [he]⟩

end Shader

end RenderMaterials
