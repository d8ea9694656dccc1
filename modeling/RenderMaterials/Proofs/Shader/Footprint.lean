import RenderMaterials.Proofs.Shader.Compiling
import RenderMaterials.Proofs.Source.Canonical
import Mathlib.Data.List.Nodup
import Mathlib.Data.List.Perm.Subperm

/-!
# Shader includes — footprints

The text of a shader is assembled from its file and the files that are put in: these are its
footprint, and no other file of the source counts.

* `Include.line_eq_ok`: what a line of a file adds.
* `Include.Extends`: an assembly adds each file once, and only files that can be read.
* `Include.expandInto_congr`: sources that agree on the files of an assembly give the same assembly.
* `Shader.resolve_congr`: sources that agree on the footprint of a shader give the same text.
* `Source.Edit`: an edit of a file; `ByText.compile_of_edit`: shaders without the file in their
  footprint compile to the same code.
* `ByText.not_compile_without`: shaders with the file in their footprint do not compile without it.
* `Translator.compiler_byText`: the code of a shader is a matter of its text, whatever translator
  makes it.
-/

namespace RenderMaterials

/-- A source has no more canonical paths to read than its size says. -/
def Source.Bounded (src : Source) : Prop :=
  ∀ ps : List String, ps.Nodup →
    (∀ p ∈ ps, Path.normalize p = .ok p ∧ ∃ data, src.read p = .ok data) → ps.length ≤ src.size

theorem MemorySource.bounded (m : MemorySource) : m.toSource.Bounded := by
  intro ps hd hps
  -- a canonical path that can be read is a key
  have hsub : ps ⊆ m.files.keys := fun p hp => by
    obtain ⟨hn, data, hr⟩ := hps p hp
    have hr' : m.read p = .ok data := hr
    rw [m.read_canonical hn] at hr'
    rw [Table.mem_keys_iff, Table.has]
    cases hv : m.files.value? p with
    | none => rw [hv] at hr'; cases hr'
    | some _ => rfl
  have hl := (hd.subperm hsub).length_le
  rwa [Table.keys, List.length_map] at hl

theorem Source.read_of_readText {src : Source} {p text : String} (h : src.readText p = .ok text) :
    ∃ data, src.read p = .ok data := by
  obtain ⟨data, hd, -⟩ := Result.bind_eq_ok.1 h
  exact ⟨data, hd⟩

/-- An edit of a file leaves the other files as they are. -/
structure Source.Edit (file : String) (src src' : Source) : Prop where
  read     : ∀ p, Path.normalize p = .ok p → p ≠ file → src'.read p = src.read p
  describe : src'.describe = src.describe
  bounded  : src'.Bounded

theorem Source.Edit.readText {src src' : Source} {file p : String} (h : Edit file src src')
    (hn : Path.normalize p = .ok p) (hp : p ≠ file) : src'.readText p = src.readText p := by
  unfold Source.readText
  rw [h.read p hn hp, h.describe]

theorem MemorySource.edit_insert (m : MemorySource) {path file : String}
    (h : Path.normalize path = .ok file) (data : Bytes) :
    Source.Edit file m.toSource (m.insert path data).toSource := by
  refine ⟨fun p hn hp => ?_, rfl, MemorySource.bounded _⟩
  change (m.insert path data).read p = m.read p
  rw [read_canonical _ hn, read_canonical _ hn, insert, place, h]
  dsimp only
  rw [Table.value?_assign_other _ _ hp.symm]

/-- A source that has lost a file. -/
def Source.without (src : Source) (file : String) : Source :=
  { src with
    read     := fun p => if p = file then .error (.fileNotFound p) else src.read p
    contains := fun p => p ≠ file && src.contains p }

namespace Source

variable {src : Source} (file : String)

theorem read_without (src : Source) (p : String) : (src.without file).read p =
    if p = file then .error (.fileNotFound p) else src.read p := rfl

theorem bounded_without (h : src.Bounded) : (src.without file).Bounded := by
  refine fun ps hd hps => h ps hd fun p hp => ?_
  obtain ⟨hn, data, hr⟩ := hps p hp
  refine ⟨hn, data, ?_⟩
  rw [read_without] at hr
  split at hr
  · cases hr
  · exact hr

theorem edit_without (h : src.Bounded) : Edit file src (src.without file) :=
  ⟨fun _ _ hp => if_neg hp, rfl, bounded_without file h⟩

/-- A file that was lost is put back. -/
theorem edit_restored (h : src.Bounded) : Edit file (src.without file) src :=
  ⟨fun _ _ hp => (if_neg hp).symm, rfl, h⟩

theorem not_readText_without (src : Source) (text : String) :
    (src.without file).readText file ≠ .ok text := by
  intro h
  obtain ⟨data, hr⟩ := read_of_readText h
  rw [read_without, if_pos rfl] at hr
  cases hr

end Source

namespace Include

variable {src src' : Source} {more more' : Nat} {file text l : String} {a a' : Assembly}

/-! ### Lines -/

/-- What puts the text of a file that a line of `file` names. -/
def put (src : Source) (file : String) :
    (more : Nat) → String → String → Assembly → Except CompileFault Assembly
  | 0        => fun path _ _ => .error (.badInclude path file (.fileNotFound path))
  | more + 1 => expandInto src more

/-- What a line of a file adds to an assembly. -/
def line (src : Source) (more : Nat) (file : String) : Assembly → String →
    Except CompileFault Assembly :=
  addLine src (put src file more) file

theorem expandInto_eq (src : Source) (more : Nat) (file text : String) (a : Assembly) :
    expandInto src more file text a = (Text.lines text).foldlM (line src more file) a := by
  cases more <;> rfl

/-- A line stands for itself, for a file that is there already, or for a file that is put in. -/
theorem line_eq_ok : line src more file a l = .ok a' ↔
    target? l = none ∧ a.push l = a' ∨
    ∃ target path, target? l = some target ∧ Path.resolveInclude file target = .ok path ∧
      (path ∈ a.files ∧ a = a' ∨ path ∉ a.files ∧ ∃ text k a₁, src.readText path = .ok text ∧
        more = k + 1 ∧ expandInto src k path text (a.enter path) = .ok a₁ ∧ a₁.push "" = a') := by
  unfold line addLine
  cases target? l with
  | none => simp
  | some target =>
      cases hn : Path.resolveInclude file target with
      | error e => simp [Except.mapError, hn]
      | ok path =>
          by_cases hp : path ∈ a.files
          · simp [Except.mapError, hn, hp]
          · cases hr : src.readText path with
            | error e => simp [Except.mapError, hn, hp, hr]
            | ok text =>
                cases more with
                | zero => simp [Except.mapError, hn, hp, hr, put]
                | succ more => simp [Except.mapError, hn, hp, hr, put, Result.bind_eq_ok]

/-! ### Files -/

/-- An assembly adds files to another: each once, and only files that can be read. -/
structure Extends (src : Source) (a a' : Assembly) : Prop where
  files : a.files ⊆ a'.files
  nodup : a.files.Nodup → a'.files.Nodup
  grows : a.files.length ≤ a'.files.length
  read  : ∀ p ∈ a'.files, p ∈ a.files ∨
    Path.normalize p = .ok p ∧ ∃ text, src.readText p = .ok text

namespace Extends

theorem refl (src : Source) (a : Assembly) : Extends src a a :=
  ⟨List.Subset.refl _, id, Nat.le_refl _, fun _ => .inl⟩

theorem trans {a₁ : Assembly} (h : Extends src a a₁) (h' : Extends src a₁ a') :
    Extends src a a' := by
  refine ⟨List.Subset.trans h.files h'.files, fun hd => h'.nodup (h.nodup hd),
    Nat.le_trans h.grows h'.grows, fun p hp => ?_⟩
  rcases h'.read p hp with hp | hp
  · exact h.read p hp
  · exact .inr hp

theorem enter {path : String} (hp : path ∉ a.files) (hn : Path.normalize path = .ok path)
    (hr : src.readText path = .ok text) : Extends src a (a.enter path) := by
  refine ⟨List.subset_append_left _ _, fun hd => ?_, ?_, fun p hp => ?_⟩
  · exact List.Nodup.append hd (List.nodup_singleton path) (by simpa using hp)
  · simp [Assembly.enter]
  · rcases List.mem_append.1 hp with hp | hp
    · exact .inl hp
    · rw [List.mem_singleton.1 hp]
      exact .inr ⟨hn, text, hr⟩

/-- Lines are no files. -/
theorem push (h : Extends src a a') (l : String) : Extends src a (a'.push l) :=
  ⟨h.files, h.nodup, h.grows, h.read⟩

theorem line (hrec : ∀ k path text b b', more = k + 1 →
      expandInto src k path text b = .ok b' → Extends src b b')
    (h : Include.line src more file a l = .ok a') : Extends src a a' := by
  obtain ⟨-, rfl⟩ | ⟨target, path, -, hp, ⟨-, rfl⟩ | ⟨hnew, text, k, a₁, hr, hk, ha, rfl⟩⟩ :=
    line_eq_ok.1 h
  · exact (refl src a).push l
  · exact refl src a
  · have he := enter hnew (Path.normalize_resolveInclude hp) hr
    exact (he.trans (hrec k path text _ a₁ hk ha)).push ""

theorem foldlM {ls : List String} {f : Assembly → String → Except CompileFault Assembly}
    (hf : ∀ a l a', f a l = .ok a' → Extends src a a') (h : ls.foldlM f a = .ok a') :
    Extends src a a' := by
  induction ls generalizing a with
  | nil =>
      obtain rfl := Except.ok.inj h
      exact .refl src a
  | cons l ls ih =>
      rw [List.foldlM_cons, Result.bind_eq_ok] at h
      obtain ⟨a₁, h₁, h⟩ := h
      exact (hf a l a₁ h₁).trans (ih h)

end Extends

/-- An assembly of a file's lines adds files that can be read, each once. -/
theorem expandInto_extends (h : expandInto src more file text a = .ok a') : Extends src a a' := by
  induction more generalizing file text a a' with
  | zero =>
      rw [expandInto_eq] at h
      exact .foldlM (fun b l b' => .line fun k _ _ _ _ hk => absurd hk (by simp)) h
  | succ more ih =>
      rw [expandInto_eq] at h
      refine .foldlM (fun b l b' => .line fun k path text c c' hk hc => ?_) h
      obtain rfl := Nat.succ.inj hk
      exact ih hc

theorem line_extends (h : line src more file a l = .ok a') : Extends src a a' :=
  .line (fun _ _ _ _ _ _ => expandInto_extends) h

/-! ### Agreement -/

/-- Two sources agree on the files that an assembly adds, and the second one may enter as many. -/
structure Agree (src src' : Source) (more' : Nat) (a a' : Assembly) : Prop where
  read : ∀ p ∈ a'.files, p ∉ a.files → src'.readText p = src.readText p
  room : a'.files.length ≤ more' + a.files.length

theorem line_congr (hrec : ∀ k k' path text b b', more = k + 1 →
      expandInto src k path text b = .ok b' → Agree src src' k' b b' →
      expandInto src' k' path text b = .ok b')
    (h : line src more file a l = .ok a') (ha : Agree src src' more' a a') :
    line src' more' file a l = .ok a' := by
  obtain hl | ⟨target, path, ht, hp, hf | ⟨hnew, text, k, a₁, hr, hk, hin, rfl⟩⟩ := line_eq_ok.1 h
  · exact line_eq_ok.2 (.inl hl)
  · exact line_eq_ok.2 (.inr ⟨target, path, ht, hp, .inl hf⟩)
  · -- the file that is put in is among those that the sources agree on
    have he := expandInto_extends hin
    have hpath : path ∈ a₁.files := he.files (by simp [Assembly.enter])
    have hr' : src'.readText path = .ok text := by
      rw [ha.read path hpath hnew, hr]
    have hroom : a₁.files.length ≤ more' + a.files.length := ha.room
    have hgrow : a.files.length + 1 ≤ a₁.files.length := by
      have := he.grows
      simpa [Assembly.enter] using this
    obtain ⟨k', rfl⟩ := Nat.exists_eq_succ_of_ne_zero (show more' ≠ 0 by omega)
    have hin' : Agree src src' k' (a.enter path) a₁ := by
      refine ⟨fun p hp hq => ha.read p hp fun hm => hq (List.mem_append_left _ hm), ?_⟩
      simp only [Assembly.enter, List.length_append, List.length_singleton]
      omega
    exact line_eq_ok.2 (.inr ⟨target, path, ht, hp, .inr ⟨hnew, text, k', a₁, hr', rfl,
      hrec k k' path text _ a₁ hk hin hin', rfl⟩⟩)

theorem foldlM_congr {ls : List String} (hline : ∀ a l a', line src more file a l = .ok a' →
      Agree src src' more' a a' → line src' more' file a l = .ok a')
    (h : ls.foldlM (line src more file) a = .ok a') (ha : Agree src src' more' a a') :
    ls.foldlM (line src' more' file) a = .ok a' := by
  induction ls generalizing a with
  | nil => exact h
  | cons l ls ih =>
      rw [List.foldlM_cons, Result.bind_eq_ok] at h
      obtain ⟨a₁, h₁, h⟩ := h
      -- the sources agree on what the first line adds, and on what the others add to it
      have e₁ := line_extends h₁
      have e₂ : Extends src a₁ a' := .foldlM (fun b l b' => line_extends) h
      have ha₁ : Agree src src' more' a a₁ :=
        ⟨fun p hp => ha.read p (e₂.files hp), Nat.le_trans e₂.grows ha.room⟩
      have ha₂ : Agree src src' more' a₁ a' :=
        ⟨fun p hp hq => ha.read p hp fun hm => hq (e₁.files hm),
          Nat.le_trans ha.room (Nat.add_le_add_left e₁.grows more')⟩
      rw [List.foldlM_cons, hline a l a₁ h₁ ha₁, Result.ok_bind]
      exact ih h ha₂

/-- Sources that agree on the files that an assembly adds give the same assembly. -/
theorem expandInto_congr (h : expandInto src more file text a = .ok a')
    (ha : Agree src src' more' a a') : expandInto src' more' file text a = .ok a' := by
  induction more generalizing file text a a' more' with
  | zero =>
      rw [expandInto_eq] at h ⊢
      refine foldlM_congr (fun b l b' => line_congr fun k _ _ _ _ _ hk => ?_) h ha
      exact absurd hk (by simp)
  | succ more ih =>
      rw [expandInto_eq] at h ⊢
      refine foldlM_congr (fun b l b' => line_congr fun k k' path text c c' hk => ?_) h ha
      obtain rfl := Nat.succ.inj hk
      exact ih

end Include

/-! ### Footprints -/

namespace Shader

variable {src src' : Source} {file out : String} {ls fs : List String}

/-- The files that a shader's text is made of, its own first. -/
def footprint? (src : Source) (file : String) : Option (List String) := do
  let text ← (src.readText file).toOption
  let a ← (Include.expandInto src src.size file text { files := [file] }).toOption
  return a.files

theorem resolve_eq_ok : resolve src file = .ok out ↔ ∃ text a, src.readText file = .ok text ∧
    Include.expandInto src src.size file text { files := [file] } = .ok a ∧
    Text.unlines a.lines = out := by
  unfold resolve Include.expand
  simp only [Result.bind_eq_ok, Result.mapError_eq_ok, Result.map_eq_ok]
  constructor
  · rintro ⟨text, ht, lines, ⟨a, ha, rfl⟩, e⟩
    exact ⟨text, a, ht, ha, Except.ok.inj e⟩
  · rintro ⟨text, a, ht, ha, rfl⟩
    exact ⟨text, ht, a.lines, ⟨a, ha, rfl⟩, rfl⟩

theorem assemble_eq_ok : assemble src file = .ok ls ↔ ∃ text a, src.readText file = .ok text ∧
    Include.expandInto src src.size file text { files := [file] } = .ok a ∧
    Text.lines (Text.unlines a.lines) = ls := by
  unfold assemble
  rw [Result.bind_eq_ok]
  constructor
  · rintro ⟨out, hout, e⟩
    obtain ⟨text, a, ht, ha, rfl⟩ := resolve_eq_ok.1 hout
    exact ⟨text, a, ht, ha, Except.ok.inj e⟩
  · rintro ⟨text, a, ht, ha, rfl⟩
    exact ⟨_, resolve_eq_ok.2 ⟨text, a, ht, ha, rfl⟩, rfl⟩

/-- The footprint of a shader whose text is assembled is the files of the assembly. -/
theorem footprint?_eq_some {a : Include.Assembly} {text : String}
    (ht : src.readText file = .ok text)
    (ha : Include.expandInto src src.size file text { files := [file] } = .ok a) :
    footprint? src file = some a.files := by
  unfold footprint?
  rw [ht, Except.toOption, Option.bind_eq_bind, Option.bind_some, ha]
  rfl

/-- A shader that has a text has a footprint. -/
theorem exists_footprint (h : resolve src file = .ok out) :
    ∃ fs, footprint? src file = some fs := by
  obtain ⟨text, a, ht, ha, -⟩ := resolve_eq_ok.1 h
  exact ⟨a.files, footprint?_eq_some ht ha⟩

/-- The files of a footprint can be read, and have canonical paths if the shader has one. -/
theorem read_of_mem_footprint (hf : footprint? src file = some fs) {p : String} (hp : p ∈ fs) :
    (p = file ∨ Path.normalize p = .ok p) ∧ ∃ text, src.readText p = .ok text := by
  obtain ⟨text, ht, hf⟩ := Option.bind_eq_some_iff.1 hf
  obtain ⟨a, ha, hf⟩ := Option.bind_eq_some_iff.1 hf
  obtain rfl := Option.some.inj hf
  rcases (Include.expandInto_extends (Result.toOption_eq_some.1 ha)).read p hp with hp' | ⟨hn, hr⟩
  · rw [List.mem_singleton.1 hp']
    exact ⟨.inl rfl, text, Result.toOption_eq_some.1 ht⟩
  · exact ⟨.inr hn, hr⟩

theorem canonical_of_mem_footprint (hfile : Path.normalize file = .ok file)
    (hf : footprint? src file = some fs) {p : String} (hp : p ∈ fs) : Path.normalize p = .ok p := by
  rcases (read_of_mem_footprint hf hp).1 with rfl | hn
  · exact hfile
  · exact hn

/-- A shader's text and footprint change only with the footprint. -/
theorem resolve_congr (h : resolve src file = .ok out) (hf : footprint? src file = some fs)
    (hfile : Path.normalize file = .ok file) (hb : src'.Bounded)
    (hread : ∀ p ∈ fs, src'.readText p = src.readText p) :
    resolve src' file = .ok out ∧ footprint? src' file = some fs := by
  obtain ⟨text, a, ht, ha, rfl⟩ := resolve_eq_ok.1 h
  obtain rfl := Option.some.inj ((footprint?_eq_some ht ha).symm.trans hf)
  have he := Include.expandInto_extends ha
  have ht' : src'.readText file = .ok text := by
    rw [hread file (he.files (by simp)), ht]
  -- the files of the assembly can all be read in the second source, so they fit into its size
  have hroom : a.files.length ≤ src'.size := by
    refine hb a.files (he.nodup (List.nodup_singleton file)) fun p hp => ?_
    obtain ⟨text', hr⟩ := (read_of_mem_footprint hf hp).2
    exact ⟨canonical_of_mem_footprint hfile hf hp, Source.read_of_readText ((hread p hp).trans hr)⟩
  have ha' := Include.expandInto_congr ha
    ⟨fun p hp _ => hread p hp, Nat.le_add_right_of_le hroom⟩
  exact ⟨resolve_eq_ok.2 ⟨text, a, ht', ha', rfl⟩, footprint?_eq_some ht' ha'⟩

end Shader

/-! ### Compilers -/

/-- A compiler that knows of the source nothing but the text of the shader, and needs it. -/
structure ByText (compile : Compiler) : Prop where
  text  : ∀ {src r code}, compile src r = .ok code → ∃ text, Shader.resolve src r.file = .ok text
  congr : ∀ {src src' r text}, Shader.resolve src r.file = .ok text →
    Shader.resolve src' r.file = .ok text → compile src' r = compile src r

namespace ByText

variable {compile : Compiler} {src src' : Source} {file : String} {r : CompileRequest}
  {code : Bytecode} {fs : List String}

/-- A shader that an edit does not touch compiles to the same code. -/
theorem compile_of_edit (hc : ByText compile) (he : Source.Edit file src src')
    (hr : Path.normalize r.file = .ok r.file)
    (hf : ∀ fs, Shader.footprint? src r.file = some fs → file ∉ fs)
    (h : compile src r = .ok code) : compile src' r = .ok code := by
  obtain ⟨text, htext⟩ := hc.text h
  obtain ⟨fs, hfs⟩ := Shader.exists_footprint htext
  have htext' := (Shader.resolve_congr htext hfs hr he.bounded fun p hp =>
    he.readText (Shader.canonical_of_mem_footprint hr hfs hp) fun e => hf fs hfs (e ▸ hp)).1
  rw [hc.congr htext htext', h]

/-- What compiles without a file compiles to the same code with it. -/
theorem compile_of_without (hc : ByText compile) (hb : src.Bounded)
    (hr : Path.normalize r.file = .ok r.file) (h : compile (src.without file) r = .ok code) :
    compile src r = .ok code := by
  refine hc.compile_of_edit (Source.edit_restored file hb) hr (fun fs hfs hin => ?_) h
  obtain ⟨text, ht⟩ := (Shader.read_of_mem_footprint hfs hin).2
  exact Source.not_readText_without file src text ht

/-- A shader does not compile without a file of its footprint. -/
theorem not_compile_without (hc : ByText compile) (hb : src.Bounded)
    (hr : Path.normalize r.file = .ok r.file) (hf : Shader.footprint? src r.file = some fs)
    (hin : file ∈ fs) : compile (src.without file) r ≠ .ok code := by
  intro h
  obtain ⟨text, htext⟩ := hc.text h
  obtain ⟨fs', hfs'⟩ := Shader.exists_footprint htext
  have hout : ∀ p ∈ fs', p ≠ file := fun p hp e => by
    obtain ⟨text', ht⟩ := (Shader.read_of_mem_footprint hfs' hp).2
    exact Source.not_readText_without file src text' (e ▸ ht)
  -- what is assembled without the file is assembled with it, and the file is no part of it
  have hback := (Shader.resolve_congr htext hfs' hr hb fun p hp =>
    (Source.edit_restored file hb).readText (Shader.canonical_of_mem_footprint hr hfs' hp)
      (hout p hp)).2
  obtain rfl := Option.some.inj (hf.symm.trans hback)
  exact hout file hin rfl

end ByText

theorem Translator.compiler_byText (t : Translator) : ByText t.compiler := by
  refine ⟨fun h => Shader.resolve_of_compile (compiler_eq_ok.1 h), fun h h' => ?_⟩
  rw [compiler, compiler, Shader.compile_congr (h'.trans h.symm)]

end RenderMaterials
