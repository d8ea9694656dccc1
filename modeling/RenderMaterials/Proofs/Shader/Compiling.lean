import RenderMaterials.Proofs.Result
import RenderMaterials.Shader.Compile

/-!
# Compiling — what a translator is asked for

Compiling a shader looks at its profile, reads its file as a module with its includes put in, and
has the module validated and one entry point written.  Whatever the translator does, it sees of the
source the resolved text and nothing else.

* `Shader.compile_eq_ok`: a shader compiles exactly when each of these steps gives something.
* `Shader.resolve_of_compile`, `Shader.compile_congr`: the text of a shader is needed, and enough.
* `Translator.refused_of_unsupported`: stages without entry points in modules are refused before
  anything is read.
-/

namespace RenderMaterials

namespace Shader

variable {t : Translator} {version : Nat × Nat} {src src' : Source} {file : String}
  {target : ModuleStage} {defines : Table String String} {r : CompileRequest} {code : Bytecode}

/-! ### Reading -/

/-- What is read has a text. -/
theorem resolve_of_parse {m : t.Module} (h : parse t src file target defines = .ok m) :
    ∃ text, resolve src file = .ok text := by
  unfold parse at h
  split at h
  · cases h
  · obtain ⟨lines, hlines, -⟩ := Result.bind_eq_ok.1 h
    obtain ⟨ls, hls, -⟩ := Result.bind_eq_ok.1 hlines
    obtain ⟨text, htext, -⟩ := Result.bind_eq_ok.1 hls
    exact ⟨text, htext⟩
  · obtain ⟨text, htext, -⟩ := Result.bind_eq_ok.1 h
    exact ⟨text, htext⟩

/-- Files of one text are read alike. -/
theorem parse_congr (h : resolve src' file = resolve src file) :
    parse t src' file target defines = parse t src file target defines := by
  unfold parse processed assemble
  rw [h]

/-! ### Compiling -/

/-- A shader compiles exactly when its profile names a stage that modules have entry points of, its
file is read as a valid module with the entry point that is asked for, and this can be written. -/
theorem compile_eq_ok : compile t version src r = .ok code ↔
    ∃ stage target m info words, Stage.ofProfile? r.profile = some stage ∧
      stage.moduleStage? = some target ∧
      parse t src r.file target (Define.environment stage r.defines) = .ok m ∧
      t.validate m = .ok info ∧ ⟨r.entry, target⟩ ∈ t.entries m ∧
      t.write version m info ⟨r.entry, target⟩ = .ok words ∧
      ⟨stage, r.entry, words.flatMap Spirv.Word.bytes⟩ = code := by
  unfold compile
  cases Stage.ofProfile? r.profile with
  | none => simp
  | some stage =>
      cases hm : stage.moduleStage? with
      | none => simp [hm]
      | some target =>
          simp only [hm, Option.some.injEq, exists_and_left, exists_eq_left', Result.bind_eq_ok,
            Result.mapError_eq_ok]
          refine exists_congr fun m => and_congr_right fun _ => exists_congr fun info =>
            and_congr_right fun _ => ?_
          by_cases hentry : ⟨r.entry, target⟩ ∈ t.entries m
          · rw [if_pos (List.contains_iff_mem.2 hentry), Result.bind_eq_ok]
            simp [hentry, Result.mapError_eq_ok]
          · rw [if_neg (mt List.contains_iff_mem.1 hentry)]
            simp [hentry]

/-- What compiles has a text. -/
theorem resolve_of_compile (h : compile t version src r = .ok code) :
    ∃ text, resolve src r.file = .ok text := by
  obtain ⟨_, _, _, _, _, -, -, hparse, -⟩ := compile_eq_ok.1 h
  exact resolve_of_parse hparse

/-- Shaders of one text compile alike, and fail alike. -/
theorem compile_congr (h : resolve src' r.file = resolve src r.file) :
    compile t version src' r = compile t version src r := by
  unfold compile
  simp only [parse_congr h]

end Shader

namespace Translator

variable {t : Translator} {src : Source} {r : CompileRequest} {code : Bytecode}

theorem compiler_eq_ok :
    t.compiler src r = .ok code ↔ Shader.compile t Shader.defaultVersion src r = .ok code :=
  Result.mapError_eq_ok

/-- A stage without entry points in modules is refused before anything is read. -/
theorem refused_of_unsupported {stage : Stage} (hprofile : Stage.ofProfile? r.profile = some stage)
    (hnone : stage.moduleStage? = none) :
    t.compiler src r = .error (CompileFault.unsupportedStage stage).message := by
  unfold compiler Shader.compile
  rw [hprofile]
  simp only [hnone]
  rfl

end Translator

end RenderMaterials
