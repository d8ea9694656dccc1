import RenderMaterials.Proofs.Pipeline.Building
import RenderMaterials.Proofs.Pipeline.Descriptors

/-!
# Shader profiles

A profile is written as the lead of a stage and two numbers, with an underscore in front of each.
Two parts of the library take it apart: reading a material checks a profile against the stage that
the shader is declared for, and a compiler finds the stage in the profile alone.

* `Text.pieces_eq_iff`: the pieces of a text are those without separators that it is made of.
* `acceptsProfile_eq_true_iff`: the profiles that a stage accepts are those of this form.
* `ShaderReference.stages_of_readAll`: shaders are read for the stages that a document writes.
* `ShaderReference.OneStage`: wherever a stage shows, it is the one that the shader is declared for.
* `Stage.accepted_exactly`: accepted profiles, the stage in them, and the shaders of materials.
-/

namespace RenderMaterials

/-- The pieces of a text are those without separators that it is made of. -/
theorem Text.pieces_eq_iff {c : Char} {s : String} {ps : List String} :
    pieces (· = c) s = ps ↔
      ps ≠ [] ∧ (∀ p ∈ ps, c ∉ p.toList) ∧ s.toList = [c].intercalate (ps.map String.toList) := by
  constructor
  · rintro rfl
    refine ⟨?_, ?_, ?_⟩
    · simpa [pieces] using splitBy_ne_nil (· = c) s.toList
    · intro p hp hc
      obtain ⟨cs, hcs, rfl⟩ := List.mem_map.1 hp
      rw [String.toList_ofList] at hc
      have hnot := not_sep_of_mem_splitBy (· = c) s.toList cs hcs c hc
      simp at hnot
    · simp [pieces, Function.comp_def, intercalate_splitBy]
  · rintro ⟨hne, hps, htext⟩
    have hsplit : splitBy (· = c) s.toList = ps.map String.toList := by
      rw [htext]
      refine splitBy_intercalate (by simp) (by simpa using hne) fun cs hcs d hd => ?_
      obtain ⟨p, hp, rfl⟩ := List.mem_map.1 hcs
      have hdc : d ≠ c := fun e => hps p hp (e ▸ hd)
      simpa using hdc
    rw [pieces, hsplit, List.map_map]
    simp [Function.comp_def]

namespace Stage

variable {s t : Stage} {profile major minor : String}

/-! ### The form of a profile -/

/-- A number: decimal digits, at least one. -/
structure IsNumber (text : String) : Prop where
  nonempty : text ≠ ""
  digits   : ∀ c ∈ text.toList, '0' ≤ c ∧ c ≤ '9'

/-- The profile of a stage with two versions. -/
def profileOf (s : Stage) (major minor : String) : String :=
  s.profileLead ++ "_" ++ major ++ "_" ++ minor

theorem isVersion_eq_true_iff {text : String} : isVersion text = true ↔ IsNumber text := by
  simp only [isVersion, Bool.and_eq_true, decide_eq_true_eq, List.all_eq_true, Char.isDigit]
  exact ⟨fun ⟨hne, hdigits⟩ => ⟨hne, hdigits⟩, fun ⟨hne, hdigits⟩ => ⟨hne, hdigits⟩⟩

theorem IsNumber.not_mem {text : String} (h : IsNumber text) {c : Char}
    (hc : c.isDigit = false) : c ∉ text.toList := by
  intro hmem
  have hdigit : c.isDigit = true := by
    rw [Char.isDigit, Bool.and_eq_true, decide_eq_true_eq, decide_eq_true_eq]
    exact h.digits c hmem
  rw [hdigit] at hc
  cases hc

theorem not_mem_profileLead (s : Stage) : '_' ∉ s.profileLead.toList := by
  cases s <;> decide

/-- A profile has the parts that it is made of. -/
theorem profileParts_eq_iff (hmajor : IsNumber major) (hminor : IsNumber minor) :
    profileParts profile = [s.profileLead, major, minor] ↔ profile = s.profileOf major minor := by
  have hparts : ∀ p ∈ [s.profileLead, major, minor], '_' ∉ p.toList := by
    intro p hp
    simp only [List.mem_cons, List.not_mem_nil, or_false] at hp
    rcases hp with rfl | rfl | rfl
    · exact not_mem_profileLead s
    · exact hmajor.not_mem (by decide)
    · exact hminor.not_mem (by decide)
  have htext : (s.profileOf major minor).toList =
      ['_'].intercalate ([s.profileLead, major, minor].map String.toList) := by
    simp [profileOf, List.intercalate_cons_cons]
  rw [profileParts, Text.pieces_eq_iff, ← htext, String.toList_inj]
  exact ⟨fun h => h.2.2, fun h => ⟨List.cons_ne_nil _ _, hparts, h⟩⟩

/-- A stage accepts the profiles that are its lead and two numbers, and nothing else. -/
theorem acceptsProfile_eq_true_iff : s.acceptsProfile profile = true ↔
    ∃ major minor, IsNumber major ∧ IsNumber minor ∧ profile = s.profileOf major minor := by
  constructor
  · intro h
    rw [acceptsProfile] at h
    split at h
    · next lead major minor hparts =>
        simp only [Bool.and_eq_true, decide_eq_true_eq, isVersion_eq_true_iff] at h
        obtain ⟨⟨rfl, hmajor⟩, hminor⟩ := h
        exact ⟨major, minor, hmajor, hminor, (profileParts_eq_iff hmajor hminor).1 hparts⟩
    · cases h
  · rintro ⟨major, minor, hmajor, hminor, hprofile⟩
    rw [acceptsProfile, (profileParts_eq_iff hmajor hminor).2 hprofile]
    simp [isVersion_eq_true_iff.2 hmajor, isVersion_eq_true_iff.2 hminor]

/-- No profile is of two stages. -/
theorem eq_of_acceptsProfile (hs : s.acceptsProfile profile = true)
    (ht : t.acceptsProfile profile = true) : s = t :=
  Option.some.inj
    ((ofProfile?_of_acceptsProfile hs).symm.trans (ofProfile?_of_acceptsProfile ht))

end Stage

/-! ### The stage of a shader -/

namespace ShaderReference

variable {ctx : ReadContext} {material pass : String} {t : ShaderReference}
  {found ss : List ShaderReference}

/-- Shaders are read for the stages of their declarations. -/
theorem stages_of_readEach {ds : List (String × Json)}
    (h : readEach ctx material pass found ds = .ok ss) :
    ss.map (some ·.stage) = found.map (some ·.stage) ++ ds.map (Stage.ofName? ·.1) := by
  induction ds generalizing found with
  | nil =>
      obtain rfl := Except.ok.inj h
      simp
  | cons d ds ih =>
      obtain ⟨written, v⟩ := d
      rw [readEach] at h
      split at h
      · next stage hstage =>
          split at h
          · cases h
          · obtain ⟨s, hs, h⟩ := Result.bind_eq_ok.1 h
            have hread := (wellFormed_of_read hs).2
            rw [ih h, List.map_append, List.append_assoc]
            simp [hstage, hread]
      · cases h

/-- Shaders are read for the stages that a document writes, in their order. -/
theorem stages_of_readAll {v : Json} (h : readAll ctx material pass v = .ok ss) :
    ∃ ds, declarations material v = .ok ds ∧
      ss.map (some ·.stage) = ds.map (Stage.ofName? ·.1) := by
  obtain ⟨ds, hds, h⟩ := Result.bind_eq_ok.1 h
  exact ⟨ds, hds, stages_of_readEach h⟩

/-- A shader is of one stage: its profile names the stage that it is declared for; compilers that
look at the profile make code of this stage of it, and translators among them refuse it when modules
have no entry points of the stage. -/
structure OneStage (t : ShaderReference) : Prop where
  profile  : Stage.ofProfile? t.profile = some t.stage
  compiled : ∀ compile : Compiler, compile.StagesByProfile → ∀ src code,
    compile src t.request = .ok code → code.stage = t.stage
  refused  : t.stage.moduleStage? = none → ∀ (translator : Translator) src,
    translator.compiler src t.request = .error (CompileFault.unsupportedStage t.stage).message

theorem oneStage_of_acceptsProfile (h : t.stage.acceptsProfile t.profile = true) : t.OneStage := by
  have hprofile := Stage.ofProfile?_of_acceptsProfile h
  refine ⟨hprofile, ?_, ?_⟩
  · intro compile hc src code hcode
    exact Option.some.inj ((hc src t.request code hcode).symm.trans hprofile)
  · intro hnone translator src
    exact Translator.refused_of_unsupported hprofile hnone

end ShaderReference

/-- A stage accepts a profile exactly when it is the lead of the stage and two numbers, with an
underscore in front of each and nothing else.  Then the profile names this stage, so that no other
one accepts it.  The shaders of a pass are read for the stages that the document writes, and each
shader of a material that was read is of one stage. -/
theorem Stage.accepted_exactly (s : Stage) (profile : String) :
    (s.acceptsProfile profile = true ↔
      ∃ major minor, IsNumber major ∧ IsNumber minor ∧ profile = s.profileOf major minor) ∧
    (s.acceptsProfile profile = true →
      ofProfile? profile = some s ∧ ∀ t : Stage, t.acceptsProfile profile = true → t = s) ∧
    (∀ ctx material pass v ss, ShaderReference.readAll ctx material pass v = .ok ss →
      (∃ ds, ShaderReference.declarations material v = .ok ds ∧
        ss.map (some ·.stage) = ds.map (ofName? ·.1)) ∧ ∀ t ∈ ss, t.OneStage) ∧
    ∀ ctx v m, Material.read ctx v = .ok m → ∀ t ∈ m.shaders, t.OneStage := by
  refine ⟨acceptsProfile_eq_true_iff, ?_, ?_, ?_⟩
  · intro hs
    exact ⟨ofProfile?_of_acceptsProfile hs, fun t ht => eq_of_acceptsProfile ht hs⟩
  · intro ctx material pass v ss hread
    refine ⟨ShaderReference.stages_of_readAll hread, ?_⟩
    intro t ht
    have hwell := (ShaderReference.together_of_readAll hread).each t ht
    exact ShaderReference.oneStage_of_acceptsProfile hwell.profile
  · intro ctx v m hread t ht
    obtain ⟨p, hp, ht⟩ := List.mem_flatMap.1 ht
    have hwell := ((Material.passes_of_read hread).2 p hp).shaders.each t ht
    exact ShaderReference.oneStage_of_acceptsProfile hwell.profile

/-! ### A shader under another name of its stage -/

namespace OtherName

open Material.TwoPasses (context json)

/-- The shaders of a pass, one of them from the library. -/
def shaders : Json :=
  .object [("vertex", .object [("file", .text "lit.wgsl"), ("profile", .text "vs_6_0")]),
    ("Fragment", .text "lit")]

theorem stages_of_read :
    (ShaderReference.readAll context "m" "forward" shaders).toOption.map (·.map (·.stage)) =
      some [.vertex, .pixel] ∧
    (Material.read context json).toOption.map (·.shaders.map (·.stage)) =
      some [.vertex, .pixel, .vertex] := by
  decide +kernel

theorem isNumber_versions : Stage.IsNumber "6" ∧ Stage.IsNumber "10" := by
  refine ⟨⟨by decide, ?_⟩, ⟨by decide, ?_⟩⟩
  · simp
  · simp

/-- The profile of a pixel shader, and shaders that are read for the stages that they name. -/
theorem stages_named :
    (Stage.pixel.acceptsProfile "ps_6_10" = true ∧
      Stage.ofProfile? "ps_6_10" = some .pixel ∧
      ∀ t : Stage, t.acceptsProfile "ps_6_10" = true → t = .pixel) ∧
    (∃ ss, ShaderReference.readAll context "m" "forward" shaders = .ok ss ∧
      ss.map (·.stage) = [.vertex, .pixel] ∧ ∀ t ∈ ss, t.OneStage) ∧
    ∃ m, Material.read context json = .ok m ∧
      m.shaders.map (·.stage) = [.vertex, .pixel, .vertex] ∧ ∀ t ∈ m.shaders, t.OneStage := by
  obtain ⟨hform, hnamed, hshaders, hmaterials⟩ := Stage.accepted_exactly .pixel "ps_6_10"
  have haccepts := hform.2 ⟨"6", "10", isNumber_versions.1, isNumber_versions.2, rfl⟩
  obtain ⟨ss, hss, hstages⟩ := Option.map_eq_some_iff.1 stages_of_read.1
  obtain ⟨m, hm, hstages'⟩ := Option.map_eq_some_iff.1 stages_of_read.2
  have hss := Result.toOption_eq_some.1 hss
  have hm := Result.toOption_eq_some.1 hm
  exact ⟨⟨haccepts, hnamed haccepts⟩, ⟨ss, hss, hstages, (hshaders _ _ _ _ _ hss).2⟩,
    m, hm, hstages', hmaterials _ _ _ hm⟩

end OtherName

end RenderMaterials
