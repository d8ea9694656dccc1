import RenderMaterials.Proofs.Shader.IncludeOrder

/-!
# Shader includes — what an expansion gives

Files may name each other in circles.  An expansion ends all the same, as it enters each file once
and a source has only so many files to enter.

* `Room`: how many files can still be entered.
* `expandInto_of_le`: an expansion with that much room gives the same with more room.
* `exists_fault_of_expandInto`: an expansion fails only at an include line of a file that it
  reaches, which names no path or a file that cannot be read.
* `expand_eq_ok`: an expansion gives the text that is laid out, root first.
* `expand_spec`: an expansion ends, succeeds exactly when all include lines that it meets can be
  followed, and then has no include line left and each reached file's other lines once.
-/

namespace RenderMaterials.Include

variable {src : Source} {file path root text l : String} {a a' : Assembly} {more more' : Nat}
  {files ls : List String} {ps : List Piece} {c : CompileFault}

/-! ### Room -/

/-- No more than so many files can be read that are not among the given ones. -/
def Room (src : Source) (more : Nat) (files : List String) : Prop :=
  ∀ paths : List String, paths.Nodup →
    (∀ p ∈ paths, p ∉ files ∧ Path.normalize p = .ok p ∧ ∃ text, src.readText p = .ok text) →
    paths.length ≤ more

theorem room_of_bounded (hb : src.Bounded) (files : List String) : Room src src.size files := by
  refine fun paths hd hpaths => hb paths hd fun p hp => ?_
  obtain ⟨-, hn, text, hr⟩ := hpaths p hp
  exact ⟨hn, Source.read_of_readText hr⟩

theorem Room.mono {files' : List String} (h : Room src more files) (hsub : files ⊆ files') :
    Room src more files' := by
  refine fun paths hd hpaths => h paths hd fun p hp => ?_
  obtain ⟨hnew, hp⟩ := hpaths p hp
  exact ⟨fun hin => hnew (hsub hin), hp⟩

/-- A file that can be entered takes up room. -/
theorem Room.enter (h : Room src more files) (hnew : path ∉ files)
    (hn : Path.normalize path = .ok path) (hr : src.readText path = .ok text) :
    ∃ k, more = k + 1 ∧ Room src k (files ++ [path]) := by
  have hcons : ∀ paths : List String, paths.Nodup →
      (∀ p ∈ paths, p ∉ files ++ [path] ∧ Path.normalize p = .ok p ∧
        ∃ text, src.readText p = .ok text) → paths.length + 1 ≤ more := by
    intro paths hd hpaths
    have hout : path ∉ paths := fun hin => (hpaths path hin).1 (by simp)
    refine h (path :: paths) (List.nodup_cons.2 ⟨hout, hd⟩) fun p hp => ?_
    rcases List.mem_cons.1 hp with rfl | hp
    · exact ⟨hnew, hn, text, hr⟩
    · obtain ⟨hp', hp⟩ := hpaths p hp
      exact ⟨fun hin => hp' (List.mem_append_left _ hin), hp⟩
  obtain ⟨k, rfl⟩ := Nat.exists_eq_succ_of_ne_zero
    (Nat.ne_of_gt (hcons [] List.nodup_nil (by simp)))
  exact ⟨k, rfl, fun paths hd hpaths => Nat.le_of_succ_le_succ (hcons paths hd hpaths)⟩

/-! ### More room -/

theorem foldlM_eq_of_extends (hline : ∀ b, Extends src a b → ∀ l,
      line src more' file b l = line src more file b l) :
    ls.foldlM (line src more' file) a = ls.foldlM (line src more file) a := by
  induction ls generalizing a with
  | nil => rfl
  | cons l ls ih =>
      rw [List.foldlM_cons, List.foldlM_cons, hline a (.refl src a) l]
      cases h : line src more file a l with
      | error e => rfl
      | ok b => exact ih fun b' hb => hline b' ((line_extends h).trans hb)

/-- A line stands for itself or names a file that is there, it names no path or a file that cannot
be read, or it names a new file, which is put in. -/
theorem line_cases (src : Source) (file : String) (a : Assembly) (l : String) :
    (∃ a', ∀ more, line src more file a l = .ok a') ∨ ∃ target, target? l = some target ∧
      ((∃ e, Path.resolveInclude file target = .error e ∧
          ∀ more, line src more file a l = .error (.inaccessible e)) ∨
        ∃ path, Path.resolveInclude file target = .ok path ∧
          ((∃ e, src.readText path = .error e ∧
              ∀ more, line src more file a l = .error (.badInclude path file e)) ∨
            ∃ text, src.readText path = .ok text ∧ path ∉ a.files ∧
              ∀ more, line src more file a l =
                put src file more path text (a.enter path) >>= fun a₁ => .ok (a₁.push ""))) := by
  unfold line addLine
  cases target? l with
  | none => exact .inl ⟨_, fun _ => rfl⟩
  | some target =>
      cases hn : Path.resolveInclude file target with
      | error e => exact .inr ⟨target, rfl, .inl ⟨e, hn, fun _ => by simp [hn, Except.mapError]⟩⟩
      | ok path =>
          by_cases hp : path ∈ a.files
          · exact .inl ⟨a, fun _ => by simp [hn, hp, Except.mapError]⟩
          · refine .inr ⟨target, rfl, .inr ⟨path, hn, ?_⟩⟩
            cases hr : src.readText path with
            | error e => exact .inl ⟨e, rfl, fun _ => by simp [hn, hp, hr, Except.mapError]⟩
            | ok text => exact .inr ⟨text, rfl, hp, fun _ => by simp [hn, hp, hr, Except.mapError]⟩

theorem line_of_room (hroom : Room src more a.files) (hle : more ≤ more')
    (hrec : ∀ k k' path text b, k < more → k ≤ k' → Room src k b.files →
      expandInto src k' path text b = expandInto src k path text b) :
    line src more' file a l = line src more file a l := by
  obtain ⟨a', h⟩ | ⟨target, -, ⟨e, -, h⟩ | ⟨path, hp, ⟨e, -, h⟩ | ⟨text, hr, hnew, h⟩⟩⟩ :=
    line_cases src file a l
  · rw [h, h]
  · rw [h, h]
  · rw [h, h]
  · obtain ⟨k, rfl, hk⟩ := hroom.enter hnew (Path.normalize_resolveInclude hp) hr
    obtain ⟨k', rfl⟩ := Nat.exists_eq_add_of_le' (Nat.le_of_add_left_le hle)
    rw [h, h, put, put, hrec k k' path text (a.enter path) (Nat.lt_succ_self k)
      (Nat.le_of_succ_le_succ hle) hk]

/-- Where there is room for every file, more room gives the same. -/
theorem expandInto_of_le (hroom : Room src more a.files) (hle : more ≤ more') :
    expandInto src more' file text a = expandInto src more file text a := by
  induction more using Nat.strongRecOn generalizing more' file text a with
  | ind more ih =>
      rw [expandInto_eq, expandInto_eq]
      refine foldlM_eq_of_extends fun b hb l => line_of_room (hroom.mono hb.files) hle ?_
      exact fun k k' path text b hlt hk hroom => ih k hlt hroom hk

/-! ### Faults -/

/-- Why an include line of a file cannot be followed. -/
inductive FaultAt (src : Source) (file : String) : CompileFault → Prop
  /-- It names no path. -/
  | resolve {text l target : String} {e : MaterialError} :
      src.readText file = .ok text → l ∈ Text.lines text → target? l = some target →
      Path.resolveInclude file target = .error e → FaultAt src file (.inaccessible e)
  /-- It names a file that cannot be read. -/
  | read {text l target path : String} {e : MaterialError} :
      src.readText file = .ok text → l ∈ Text.lines text → target? l = some target →
      Path.resolveInclude file target = .ok path → src.readText path = .error e →
      FaultAt src file (.badInclude path file e)

/-- Each include line of a file names a file that can be read. -/
def Followable (src : Source) (file : String) : Prop :=
  ∀ text, src.readText file = .ok text → ∀ l ∈ Text.lines text, ∀ target, target? l = some target →
    ∃ path text', Path.resolveInclude file target = .ok path ∧ src.readText path = .ok text'

theorem Followable.not_faultAt (h : Followable src file) (c : CompileFault) :
    ¬ FaultAt src file c := by
  rintro (⟨ht, hl, htarget, he⟩ | ⟨ht, hl, htarget, hp, he⟩)
  · obtain ⟨path, text', hp, -⟩ := h _ ht _ hl _ htarget
    cases he.symm.trans hp
  · obtain ⟨path', text', hp', hr⟩ := h _ ht _ hl _ htarget
    obtain rfl := Except.ok.inj (hp.symm.trans hp')
    cases he.symm.trans hr

theorem exists_line_of_foldlM (h : ls.foldlM (line src more file) a = .error c) :
    ∃ l ∈ ls, ∃ b, Extends src a b ∧ line src more file b l = .error c := by
  induction ls generalizing a with
  | nil => cases h
  | cons l ls ih =>
      rw [List.foldlM_cons, Result.bind_eq_error] at h
      rcases h with h | ⟨a₁, h₁, h⟩
      · exact ⟨l, List.mem_cons_self, a, .refl src a, h⟩
      · obtain ⟨l', hl', b, hb, h⟩ := ih h
        exact ⟨l', List.mem_cons_of_mem l hl', b, (line_extends h₁).trans hb, h⟩

/-- Where there is room for every file, an expansion fails only at an include line that cannot be
followed. -/
theorem exists_fault_of_expandInto (hroom : Room src more a.files)
    (ht : src.readText file = .ok text) (h : expandInto src more file text a = .error c) :
    ∃ f, Reaches src file f ∧ FaultAt src f c := by
  induction more using Nat.strongRecOn generalizing file text a with
  | ind more ih =>
      rw [expandInto_eq] at h
      obtain ⟨l, hl, b, hb, h⟩ := exists_line_of_foldlM h
      obtain ⟨a', h'⟩ | ⟨target, htarget, ⟨e, he, h'⟩ |
        ⟨path, hp, ⟨e, he, h'⟩ | ⟨text', hr, hnew, h'⟩⟩⟩ := line_cases src file b l
      · cases (h' more).symm.trans h
      · obtain rfl := Except.error.inj ((h' more).symm.trans h)
        exact ⟨file, .refl, .resolve ht hl htarget he⟩
      · obtain rfl := Except.error.inj ((h' more).symm.trans h)
        exact ⟨file, .refl, .read ht hl htarget hp he⟩
      · obtain ⟨k, rfl, hk⟩ :=
          (hroom.mono hb.files).enter hnew (Path.normalize_resolveInclude hp) hr
        obtain hin | ⟨_, -, h⟩ := Result.bind_eq_error.1 ((h' _).symm.trans h)
        · obtain ⟨f, hf, hfault⟩ := ih k (Nat.lt_succ_self k) hk hr hin
          exact ⟨f, .head ⟨text, l, target, ht, hl, htarget, hp⟩ hf, hfault⟩
        · cases h

/-! ### Texts -/

/-- All include lines of a text that is laid out can be followed. -/
theorem LaidOut.followable (h : LaidOut src root ps) {f : String} (hf : Reaches src root f) :
    Followable src f := by
  intro text ht l hl target htarget
  obtain ⟨text', ht', hn⟩ := h.exists_read ((h.reaches_iff f).1 hf)
  obtain rfl := Except.ok.inj (ht.symm.trans ht')
  obtain ⟨path, hnamed, hp⟩ := hn l hl target htarget
  have hpath : path = root ∨ path ∈ entered ps := by
    rw [h.mem_entered_iff]
    exact or_iff_not_imp_left.2 fun hne => ⟨hne, hnamed⟩
  obtain ⟨text', hr, -⟩ := h.exists_read hpath
  exact ⟨path, text', hp, hr⟩

theorem laidOut_of_expandInto (ht : src.readText root = .ok text)
    (h : expandInto src more root text { files := [root] } = .ok a) :
    ∃ ps, LaidOut src root ps ∧ shown ps = a.lines := by
  obtain ⟨ps, hl, hf, hlines, -⟩ := lays_of_expands (expands_of_expandInto h) (numbered_fst text)
  exact ⟨ps, ⟨⟨text, ht, hl⟩, hf⟩, hlines.symm⟩

/-- An expansion gives the text that is laid out. -/
theorem expand_eq_ok (hb : src.Bounded) (ht : src.readText root = .ok text) :
    expand src root text = .ok ls ↔ ∃ ps, LaidOut src root ps ∧ shown ps = ls := by
  have hgives : ∀ ls, expand src root text = .ok ls →
      ∃ ps, LaidOut src root ps ∧ shown ps = ls := by
    intro ls h
    obtain ⟨a, ha, rfl⟩ := Result.map_eq_ok.1 h
    exact laidOut_of_expandInto ht ha
  refine ⟨hgives ls, ?_⟩
  rintro ⟨ps, hps, rfl⟩
  cases h : expandInto src src.size root text { files := [root] } with
  | error c =>
      obtain ⟨f, hf, hfault⟩ := exists_fault_of_expandInto (room_of_bounded hb _) ht h
      exact absurd hfault ((hps.followable hf).not_faultAt c)
  | ok a =>
      obtain ⟨qs, hqs, hlines⟩ := laidOut_of_expandInto ht h
      rw [expand, h, hps.unique hqs, hlines]
      rfl

/-- An expansion succeeds exactly when all include lines that it meets can be followed. -/
theorem expand_isOk_iff (hb : src.Bounded) (ht : src.readText root = .ok text) :
    (∃ ls, expand src root text = .ok ls) ↔ ∀ f, Reaches src root f → Followable src f := by
  constructor
  · rintro ⟨ls, h⟩ f hf
    obtain ⟨ps, hps, -⟩ := (expand_eq_ok hb ht).1 h
    exact hps.followable hf
  · intro hall
    cases h : expandInto src src.size root text { files := [root] } with
    | error c =>
        obtain ⟨f, hf, hfault⟩ := exists_fault_of_expandInto (room_of_bounded hb _) ht h
        exact absurd hfault ((hall f hf).not_faultAt c)
    | ok a => exact ⟨a.lines, by rw [expand, h]; rfl⟩

/-- What is reached from a canonical path has one. -/
theorem Reaches.canonical {f : String} (h : Reaches src root f)
    (hn : Path.normalize root = .ok root) : Path.normalize f = .ok f := by
  induction h with
  | refl => exact hn
  | tail _ hstep _ => exact hstep.canonical

/-- **Include expansion.**  An expansion from a canonical root ends in a source with finitely many
files, as no bound on the files that can be entered is ever met.  It succeeds exactly when all
include lines that it meets name files that can be read.  The text is then laid out with each file
where it is named first and the root only at the start: no include line is left, and each file that
is reached gives its other lines once and in their order. -/
theorem expand_spec (hb : src.Bounded) (hn : Path.normalize root = .ok root)
    (ht : src.readText root = .ok text) :
    (∀ more, src.size ≤ more → expandInto src more root text { files := [root] } =
      expandInto src src.size root text { files := [root] }) ∧
    ((∃ ls, expand src root text = .ok ls) ↔ ∀ f, Reaches src root f → Followable src f) ∧
    (∀ ls, expand src root text = .ok ls ↔ ∃ ps, LaidOut src root ps ∧ shown ps = ls) ∧
    ∀ ps, LaidOut src root ps →
      (∀ l ∈ Text.lines (Text.unlines (shown ps)), target? l = none) ∧
      root ∉ entered ps ∧ (entered ps).Nodup ∧
      (∀ f, Reaches src root f ↔ f = root ∨ f ∈ entered ps) ∧
      (∀ f, Reaches src root f → Path.normalize f = .ok f ∧ linesOf f ps = ownLines src f) ∧
      ∀ f, ¬ Reaches src root f → linesOf f ps = [] := by
  refine ⟨fun more hle => expandInto_of_le (room_of_bounded hb _) hle, expand_isOk_iff hb ht,
    fun ls => expand_eq_ok hb ht,
    fun ps hps => ⟨hps.target?_of_mem, ?_, ?_, hps.reaches_iff, ?_, ?_⟩⟩
  · exact fun hin => ((hps.mem_entered_iff root).1 hin).1 rfl
  · exact hps.first.nodup_entered.1
  · exact fun f hf => ⟨Reaches.canonical hf hn, hps.linesOf_of_reaches hf⟩
  · exact fun f hf => hps.linesOf_of_not_reaches hf

namespace Circle

/-- The lines of a shader that names a file in two spellings. -/
def litLines : List String :=
  ["#include \"common.wgsl\"", "fn a() \x7b\x7d", "#include \"./common.wgsl\""]

/-- The lines of that file, which names the shader. -/
def commonLines : List String := ["#include \"lit.wgsl\"", "fn b() \x7b\x7d"]

/-- Two files that name each other. -/
def memory : MemorySource :=
  (({} : MemorySource).insertText "common.wgsl" (Text.unlines commonLines)).insertText
    "lit.wgsl" (Text.unlines litLines)

theorem readTexts : memory.toSource.readText "common.wgsl" = .ok (Text.unlines commonLines) ∧
    memory.toSource.readText "lit.wgsl" = .ok (Text.unlines litLines) := by decide +kernel

theorem targets : target? "#include \"common.wgsl\"" = some "common.wgsl" ∧
    target? "#include \"./common.wgsl\"" = some "./common.wgsl" ∧
    target? "#include \"lit.wgsl\"" = some "lit.wgsl" := ⟨rfl, rfl, rfl⟩

/-- The other file is put in where the shader names it first, and names the shader in vain. -/
def pieces : List Piece :=
  [.naming "lit.wgsl" 0 "common.wgsl" true, .naming "common.wgsl" 0 "lit.wgsl" false,
    .line "common.wgsl" 1 "fn b() \x7b\x7d", .mark "common.wgsl",
    .line "lit.wgsl" 1 "fn a() \x7b\x7d", .naming "lit.wgsl" 2 "common.wgsl" false]

theorem laidOut : LaidOut memory.toSource "lit.wgsl" pieces := by
  have hinner : Lays memory.toSource "common.wgsl" (numbered (Text.unlines commonLines))
      [.naming "common.wgsl" 0 "lit.wgsl" false, .line "common.wgsl" 1 "fn b() \x7b\x7d"] :=
    .skip targets.2.2 rfl (.line rfl .nil)
  have hrest : Lays memory.toSource "lit.wgsl" (litLines.zipIdx.drop 1)
      [.line "lit.wgsl" 1 "fn a() \x7b\x7d", .naming "lit.wgsl" 2 "common.wgsl" false] :=
    .line rfl (.skip targets.2.1 rfl .nil)
  have hlit : Lays memory.toSource "lit.wgsl" (numbered (Text.unlines litLines)) pieces :=
    .put targets.1 rfl readTexts.1 hinner hrest
  exact ⟨⟨_, readTexts.2, hlit⟩, by simp [FirstOnly, pieces]⟩

/-- The text of the shader: all that it reaches can be followed. -/
theorem expand_lit :
    expand memory.toSource "lit.wgsl" (Text.unlines litLines) =
      .ok ["fn b() \x7b\x7d", "", "fn a() \x7b\x7d"] ∧
    (∀ f, Reaches memory.toSource "lit.wgsl" f → Followable memory.toSource f) ∧
    "lit.wgsl" ∉ entered pieces := by
  obtain ⟨-, hsucceeds, hls, hlaid⟩ := expand_spec memory.bounded rfl readTexts.2
  have h := (hls _).2 ⟨pieces, laidOut, rfl⟩
  exact ⟨h, hsucceeds.1 ⟨_, h⟩, (hlaid pieces laidOut).2.1⟩

end Circle

end RenderMaterials.Include
