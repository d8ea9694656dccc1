import RenderMaterials.Proofs.Shader.Profiles

/-!
# Reading materials — what the name of a compiled shader tells

A compiled shader is named by its file, entry point, profile and defines, written one behind the
other with separators.  A profile holds no separator, but the other parts may, and then two shaders
can have one name: a `#` of a file may be taken for the one before an entry point, a `,` of a define
for one between two, and what stands between an entry point and the defines for a part of either.

* `Text.append_cons_eq_iff`: a text cut at two places where a separator stands.
* `Stage.not_mem_of_acceptsProfile`: a profile holds no separator.
* `ShaderReference.Confused`: the ways in which parts that differ make one name.
* `ShaderReference.identity_eq_iff`: shaders of read materials have one name exactly when their
  parts agree or are confused in one of these ways; without separators in the wrong places they
  agree.  An id that is made up for a shader is its name.
* `ShaderReference.CommaDefine.one_name`: two shaders of one name.
-/

namespace RenderMaterials

/-! ### Separators -/

namespace Text

variable {c d : Char} {l l' r r' : List Char}

/-- A text that is cut at two places, at a separator each time: the places are the same, or what
lies between them belongs to the end of one part and to the start of another. -/
theorem append_cons_eq_iff : l ++ c :: r = l' ++ c :: r' ↔
    (l = l' ∧ r = r') ∨ (∃ w, l' = l ++ c :: w ∧ r = w ++ c :: r') ∨
      ∃ w, l = l' ++ c :: w ∧ r' = w ++ c :: r := by
  constructor
  · intro h
    obtain ⟨u, hl, hr⟩ | ⟨u, hl, hr⟩ := List.append_eq_append_iff.1 h
    · cases u with
      | nil => exact .inl ⟨by simpa using hl.symm, by simpa using hr⟩
      | cons e w =>
          obtain ⟨rfl, hrest⟩ := List.cons.inj hr
          exact .inr (.inl ⟨w, hl, hrest⟩)
    · cases u with
      | nil => exact .inl ⟨by simpa using hl, by simpa using hr.symm⟩
      | cons e w =>
          obtain ⟨rfl, hrest⟩ := List.cons.inj hr
          exact .inr (.inr ⟨w, hl, hrest⟩)
  · rintro (⟨rfl, rfl⟩ | ⟨w, rfl, rfl⟩ | ⟨w, rfl, rfl⟩) <;> simp

/-- The first separator ends the part before it. -/
theorem append_cons_inj_left (h : c ∉ l) (h' : c ∉ l') :
    l ++ c :: r = l' ++ c :: r' ↔ l = l' ∧ r = r' := by
  rw [append_cons_eq_iff]
  refine or_iff_left ?_
  rintro (⟨w, rfl, -⟩ | ⟨w, rfl, -⟩)
  · exact h' (by simp)
  · exact h (by simp)

/-- The last separator starts the part behind it. -/
theorem append_cons_inj_right (h : c ∉ r) (h' : c ∉ r') :
    l ++ c :: r = l' ++ c :: r' ↔ l = l' ∧ r = r' := by
  rw [append_cons_eq_iff]
  refine or_iff_left ?_
  rintro (⟨w, -, rfl⟩ | ⟨w, -, rfl⟩)
  · exact h (by simp)
  · exact h' (by simp)

/-- A separator that a part does not hold stands behind it and another separator. -/
theorem append_cons_eq_cons_iff (hcd : c ≠ d) (h : d ∉ l) :
    l ++ c :: r = l' ++ d :: r' ↔ ∃ w, l' = l ++ c :: w ∧ r = w ++ d :: r' := by
  constructor
  · intro heq
    obtain ⟨u, hl, hr⟩ | ⟨u, hl, hr⟩ := List.append_eq_append_iff.1 heq
    · cases u with
      | nil => exact absurd (List.cons.inj hr).1 hcd
      | cons e w =>
          obtain ⟨rfl, hrest⟩ := List.cons.inj hr
          exact ⟨w, hl, hrest⟩
    · cases u with
      | nil => exact absurd (List.cons.inj hr).1.symm hcd
      | cons e w =>
          obtain ⟨rfl, -⟩ := List.cons.inj hr
          exact absurd (hl ▸ by simp) h
  · rintro ⟨w, rfl, rfl⟩
    simp

/-- Texts without separators that are put together in one way are the same. -/
theorem intercalate_inj {ps qs : List (List Char)} (hp : ps ≠ []) (hq : qs ≠ [])
    (hps : ∀ p ∈ ps, c ∉ p) (hqs : ∀ q ∈ qs, c ∉ q) (h : [c].intercalate ps = [c].intercalate qs) :
    ps = qs := by
  have hfound : ∀ {ts : List (List Char)}, ts ≠ [] → (∀ t ∈ ts, c ∉ t) →
      splitBy (· = c) ([c].intercalate ts) = ts := fun hne hts =>
    splitBy_intercalate (by simp) hne fun t ht e he => by
      have hec : e ≠ c := fun heq => hts t ht (heq ▸ he)
      simpa using hec
  rw [← hfound hp hps, h, hfound hq hqs]

end Text

/-! ### Profiles -/

namespace Stage

/-- A profile holds letters, digits and underscores only. -/
theorem not_mem_of_acceptsProfile {s : Stage} {profile : String}
    (h : s.acceptsProfile profile = true) {c : Char} (hc : c.isAlphanum = false) (hc' : c ≠ '_') :
    c ∉ profile.toList := by
  obtain ⟨major, minor, hmajor, hminor, rfl⟩ := acceptsProfile_eq_true_iff.1 h
  obtain ⟨hletter, hdigit⟩ := Bool.or_eq_false_iff.1 hc
  have hlead : ∀ e ∈ s.profileLead.toList, e.isAlpha = true := by
    cases s <;> simp [profileLead]
  have hnotLead : c ∉ s.profileLead.toList := by
    intro hmem
    rw [hlead c hmem] at hletter
    cases hletter
  simp [profileOf, hc', hnotLead, hmajor.not_mem hdigit, hminor.not_mem hdigit]

end Stage

/-! ### Parts of a name -/

namespace ShaderReference

/-- Two shaders of one file, entry point, profile and list of defines. -/
structure SameParts (s t : ShaderReference) : Prop where
  file    : s.file = t.file
  entry   : s.entry = t.entry
  profile : s.profile = t.profile
  defines : s.defines = t.defines

/-- The defines of a shader in its name. -/
def joined (s : ShaderReference) : String := ",".intercalate s.defines

/-- Parts that differ and make one name: what stands behind a `#` of a file is read as the start of
an entry point, a define with a `,` as two, or what stands before an `@` in the defines as the end
of an entry point. -/
inductive Confused (s t : ShaderReference) : Prop
  | entry (w : String) (file : t.file = s!"{s.file}#{w}") (entry : s.entry = s!"{w}#{t.entry}")
      (profile : s.profile = t.profile) (any : s.defines = [] ↔ t.defines = [])
      (defines : s.joined = t.joined)
  | defines (file : s.file = t.file) (entry : s.entry = t.entry) (profile : s.profile = t.profile)
      (any : s.defines ≠ [] ∧ t.defines ≠ []) (ne : s.defines ≠ t.defines)
      (defines : s.joined = t.joined)
  | profile (w : String)
      (lead : s!"{t.file}#{t.entry}" = s!"{s.file}#{s.entry}@{s.profile}[{w}")
      (any : s.defines ≠ [] ∧ t.defines ≠ [])
      (defines : s.joined = s!"{w}@{t.profile}[{t.joined}")

/-- A shader whose parts hold no separator that ends them. -/
structure Plain (s : ShaderReference) : Prop where
  file    : '#' ∉ s.file.toList
  entry   : '@' ∉ s.entry.toList
  defines : ∀ d ∈ s.defines, ',' ∉ d.toList

/-- The characters in front of the profile. -/
def lead (s : ShaderReference) : List Char := s.file.toList ++ '#' :: s.entry.toList

theorem toList_identity_nil {s : ShaderReference} (h : s.defines = []) :
    s.identity.toList = s.lead ++ '@' :: s.profile.toList := by
  simp [identity, identityOf, h, lead, toString]

theorem toList_identity_ne_nil {s : ShaderReference} (h : s.defines ≠ []) :
    s.identity.toList =
      (s.lead ++ '@' :: (s.profile.toList ++ '[' :: s.joined.toList)) ++ [']'] := by
  simp [identity, identityOf, h, lead, toString, joined]

variable {s t : ShaderReference}

theorem lead_eq_iff : s.lead = t.lead ↔ (s.file = t.file ∧ s.entry = t.entry) ∨
    (∃ w : String, t.file = s!"{s.file}#{w}" ∧ s.entry = s!"{w}#{t.entry}") ∨
      ∃ w : String, s.file = s!"{t.file}#{w}" ∧ t.entry = s!"{w}#{s.entry}" := by
  have hshift : ∀ {a b c d : String},
      (∃ w : List Char, a.toList = b.toList ++ '#' :: w ∧ c.toList = w ++ '#' :: d.toList) ↔
        ∃ w : String, a = s!"{b}#{w}" ∧ c = s!"{w}#{d}" := by
    intro a b c d
    simp only [← String.toList_inj]
    constructor
    · rintro ⟨w, hw, hw'⟩
      exact ⟨String.ofList w, by simpa [toString] using hw, by simpa [toString] using hw'⟩
    · rintro ⟨w, hw, hw'⟩
      exact ⟨w.toList, by simpa [toString] using hw, by simpa [toString] using hw'⟩
  rw [lead, lead, Text.append_cons_eq_iff, String.toList_inj, String.toList_inj, hshift, hshift]

/-- What stands between the entry points of two shaders, as text and as characters. -/
theorem profile_shift_iff : (∃ w : String,
      s!"{t.file}#{t.entry}" = s!"{s.file}#{s.entry}@{s.profile}[{w}" ∧
        s.joined = s!"{w}@{t.profile}[{t.joined}") ↔
    ∃ w : List Char, t.lead = s.lead ++ '@' :: (s.profile.toList ++ '[' :: w) ∧
      s.joined.toList = w ++ '@' :: (t.profile.toList ++ '[' :: t.joined.toList) := by
  simp only [← String.toList_inj]
  constructor
  · rintro ⟨w, hw, hw'⟩
    exact ⟨w.toList, by simpa [toString, lead] using hw, by simpa [toString] using hw'⟩
  · rintro ⟨w, hw, hw'⟩
    exact ⟨String.ofList w, by simpa [toString, lead] using hw, by simpa [toString] using hw'⟩

/-- Parts that are written alike make one name. -/
theorem identity_congr (hlead : s.lead = t.lead) (hprofile : s.profile = t.profile)
    (hany : s.defines = [] ↔ t.defines = []) (hjoined : s.joined = t.joined) :
    s.identity = t.identity := by
  rw [← String.toList_inj]
  by_cases hs : s.defines = []
  · rw [toList_identity_nil hs, toList_identity_nil (hany.1 hs), hlead, hprofile]
  · rw [toList_identity_ne_nil hs, toList_identity_ne_nil (mt hany.2 hs), hlead, hprofile, hjoined]

theorem Confused.identity_eq (h : Confused s t) : s.identity = t.identity := by
  cases h with
  | entry w hfile hentry hprofile hany hdefines =>
      exact identity_congr (lead_eq_iff.2 (.inr (.inl ⟨w, hfile, hentry⟩))) hprofile hany hdefines
  | defines hfile hentry hprofile hany _ hdefines =>
      exact identity_congr (lead_eq_iff.2 (.inl ⟨hfile, hentry⟩)) hprofile
        (iff_of_false hany.1 hany.2) hdefines
  | profile w hlead hany hdefines =>
      obtain ⟨u, hlead', hdefines'⟩ := profile_shift_iff.1 ⟨w, hlead, hdefines⟩
      rw [← String.toList_inj, toList_identity_ne_nil hany.1, toList_identity_ne_nil hany.2, hlead',
        hdefines']
      simp

/-- A name ends with a bracket exactly when there are defines. -/
theorem defines_ne_nil_iff (hs : s.stage.acceptsProfile s.profile = true) :
    s.defines ≠ [] ↔ s.identity.toList.getLast? = some ']' := by
  by_cases hnil : s.defines = []
  · have hother : ']' ∉ '@' :: s.profile.toList := by
      simpa using Stage.not_mem_of_acceptsProfile hs (by decide) (by decide)
    rw [toList_identity_nil hnil, List.getLast?_append_of_ne_nil _ (List.cons_ne_nil _ _)]
    exact iff_of_false (fun h => h hnil) fun h => hother (List.mem_of_getLast? h)
  · rw [toList_identity_ne_nil hnil, List.getLast?_append_of_ne_nil _ (List.cons_ne_nil _ _)]
    exact iff_of_true hnil rfl

/-- Parts that are written alike are the same, or are confused at an entry point or in the
defines. -/
theorem parts_of_lead (hlead : s.lead = t.lead) (hprofile : s.profile = t.profile)
    (hany : s.defines = [] ↔ t.defines = []) (hjoined : s.joined = t.joined) :
    SameParts s t ∨ Confused s t ∨ Confused t s := by
  obtain ⟨hfile, hentry⟩ | ⟨w, hfile, hentry⟩ | ⟨w, hfile, hentry⟩ := lead_eq_iff.1 hlead
  · by_cases hdefines : s.defines = t.defines
    · exact .inl ⟨hfile, hentry, hprofile, hdefines⟩
    · have hne : s.defines ≠ [] ∧ t.defines ≠ [] := by
        refine ⟨fun hs => hdefines ?_, fun ht => hdefines ?_⟩
        · rw [hs, hany.1 hs]
        · rw [ht, hany.2 ht]
      exact .inr (.inl (.defines hfile hentry hprofile hne hdefines hjoined))
  · exact .inr (.inl (.entry w hfile hentry hprofile hany hjoined))
  · exact .inr (.inr (.entry w hfile hentry hprofile.symm hany.symm hjoined.symm))

/-- Shaders of one name have the same parts, or parts that are confused. -/
theorem parts_of_identity (hs : s.stage.acceptsProfile s.profile = true)
    (ht : t.stage.acceptsProfile t.profile = true) (h : s.identity = t.identity) :
    SameParts s t ∨ Confused s t ∨ Confused t s := by
  have hat : ∀ {u : ShaderReference}, u.stage.acceptsProfile u.profile = true →
      '@' ∉ u.profile.toList ∧ '[' ∉ u.profile.toList := fun hu =>
    ⟨Stage.not_mem_of_acceptsProfile hu (by decide) (by decide),
      Stage.not_mem_of_acceptsProfile hu (by decide) (by decide)⟩
  have hany : s.defines ≠ [] ↔ t.defines ≠ [] := by
    rw [defines_ne_nil_iff hs, defines_ne_nil_iff ht, h]
  have htext := congrArg String.toList h
  by_cases hnil : s.defines = []
  · have hnil' : t.defines = [] := by_contra fun hne => hany.2 hne hnil
    rw [toList_identity_nil hnil, toList_identity_nil hnil',
      Text.append_cons_inj_right (hat hs).1 (hat ht).1, String.toList_inj] at htext
    refine parts_of_lead htext.1 htext.2 (iff_of_true hnil hnil') ?_
    rw [joined, joined, hnil, hnil']
  · have hnil' := hany.1 hnil
    rw [toList_identity_ne_nil hnil, toList_identity_ne_nil hnil', List.append_cancel_right_eq,
      Text.append_cons_eq_iff] at htext
    obtain ⟨hlead, hrest⟩ | ⟨v, hlead, hrest⟩ | ⟨v, hlead, hrest⟩ := htext
    · rw [Text.append_cons_inj_left (hat hs).2 (hat ht).2, String.toList_inj, String.toList_inj]
        at hrest
      exact parts_of_lead hlead hrest.1 (iff_of_false hnil hnil') hrest.2
    · -- the entry point of one shader goes on in the defines of the other
      obtain ⟨w, rfl, hjoined⟩ := (Text.append_cons_eq_cons_iff (by decide) (hat hs).1).1 hrest
      obtain ⟨u, hlead', hjoined'⟩ := profile_shift_iff.2 ⟨w, hlead, hjoined⟩
      exact .inr (.inl (.profile u hlead' ⟨hnil, hnil'⟩ hjoined'))
    · obtain ⟨w, rfl, hjoined⟩ := (Text.append_cons_eq_cons_iff (by decide) (hat ht).1).1 hrest
      obtain ⟨u, hlead', hjoined'⟩ := profile_shift_iff.2 ⟨w, hlead, hjoined⟩
      exact .inr (.inr (.profile u hlead' ⟨hnil', hnil⟩ hjoined'))

/-- Parts whose separators stand between them only are not confused. -/
theorem Plain.not_confused (hs : s.Plain) (ht : t.Plain) : ¬ Confused s t := by
  intro h
  cases h with
  | entry w hfile =>
      refine ht.file ?_
      rw [hfile]
      simp [toString]
  | defines _ _ _ hany hne hdefines =>
      have hseparate : ∀ {u : ShaderReference}, u.Plain →
          ∀ d ∈ u.defines.map String.toList, ',' ∉ d := fun hu =>
        List.forall_mem_map.2 hu.defines
      have hjoined := congrArg String.toList hdefines
      rw [joined, joined, String.toList_intercalate, String.toList_intercalate] at hjoined
      have hlists := Text.intercalate_inj (by simpa using hany.1) (by simpa using hany.2)
        (hseparate hs) (hseparate ht) hjoined
      exact hne (List.map_injective_iff.2 (fun _ _ => String.toList_inj.1) hlists)
  | profile w hlead hany hdefines =>
      obtain ⟨u, hlead', -⟩ := profile_shift_iff.1 ⟨w, hlead, hdefines⟩
      rw [lead, lead, List.append_assoc, List.cons_append,
        Text.append_cons_inj_left ht.file hs.file] at hlead'
      refine ht.entry ?_
      rw [hlead'.2]
      simp

/-! ### Shaders of materials -/

/-- A shader of a material that was read. -/
def InMaterial (s : ShaderReference) : Prop :=
  ∃ ctx v m, Material.read ctx v = .ok m ∧ s ∈ m.shaders

/-- A shader that is declared in place and without an id. -/
def Unnamed (s : ShaderReference) : Prop :=
  ∃ ctx material stage written v, v.text? = none ∧ v.textField? "id" = none ∧
    read ctx material stage written v = .ok s

theorem InMaterial.acceptsProfile (h : InMaterial s) : s.stage.acceptsProfile s.profile = true := by
  obtain ⟨ctx, v, m, hm, hs⟩ := h
  obtain ⟨p, hp, hs⟩ := List.mem_flatMap.1 hs
  exact (((Material.passes_of_read hm).2 p hp).shaders.each s hs).profile

/-- A shader that is given no id has its name for one. -/
theorem id_of_ofDeclaration {ctx : ReadContext} {material : String} {stage : Stage}
    {id? : Option String} {v : Json} (h : ofDeclaration ctx material stage id? v = .ok s) :
    s.id = id?.getD s.identity := by
  obtain ⟨written, -, h⟩ := Result.bind_eq_ok.1 h
  obtain ⟨profile, -, h⟩ := Result.bind_eq_ok.1 h
  obtain ⟨file, -, h⟩ := Result.bind_eq_ok.1 h
  simp only [Result.throw_eq, Result.error_bind] at h
  split at h
  · cases h
  · split at h
    · cases h
    · obtain rfl := Except.ok.inj h
      rfl

theorem Unnamed.id_eq (h : Unnamed s) : s.id = s.identity := by
  obtain ⟨ctx, material, stage, written, v, htext, hid, h⟩ := h
  rw [read_of_inPlace htext, hid] at h
  exact id_of_ofDeclaration h

/-- Shaders of materials have one name exactly when their parts are the same or are confused; when
no file holds a `#`, no entry point an `@` and no define a `,`, exactly when they are the same.  The
ids of shaders that are declared in place without one are alike when the names are. -/
theorem identity_eq_iff (hs : InMaterial s) (ht : InMaterial t) :
    (s.identity = t.identity ↔ SameParts s t ∨ Confused s t ∨ Confused t s) ∧
    (s.Plain → t.Plain → (s.identity = t.identity ↔ SameParts s t)) ∧
    (Unnamed s → Unnamed t → (s.id = t.id ↔ s.identity = t.identity)) := by
  have hsame : SameParts s t → s.identity = t.identity := fun h => by
    rw [identity, identity, h.file, h.entry, h.profile, h.defines]
  refine ⟨⟨parts_of_identity hs.acceptsProfile ht.acceptsProfile, ?_⟩, fun hp hp' => ⟨?_, hsame⟩,
    fun hu hu' => by rw [hu.id_eq, hu'.id_eq]⟩
  · rintro (h | h | h)
    · exact hsame h
    · exact h.identity_eq
    · exact h.identity_eq.symm
  · intro h
    obtain h | h | h := parts_of_identity hs.acceptsProfile ht.acceptsProfile h
    · exact h
    · exact absurd h (hp.not_confused hp')
    · exact absurd h (hp'.not_confused hp)

/-! ### A define with a comma -/

namespace CommaDefine

def context : ReadContext where
  source     := (({} : MemorySource).insertText "lit.wgsl" "").toSource
  shaderRoot := "."

/-- A material of one shader with defines. -/
def json (defines : List String) : Json :=
  .object [("id", .text "m"), ("shaders", .object [("vertex", .object [
    ("file", .text "lit.wgsl"), ("profile", .text "vs_6_0"),
    ("defines", .array (defines.map .text))])])]

/-- Its shader. -/
def shader (defines : List String) : ShaderReference where
  stage   := .vertex
  id      := identityOf "lit.wgsl" "main" "vs_6_0" defines
  file    := "lit.wgsl"
  entry   := "main"
  profile := "vs_6_0"
  defines

/-- The shaders of two defines, of one with a comma and of one without. -/
theorem evaluated :
    (Material.read context (json ["A", "B"])).map (·.shaders) = .ok [shader ["A", "B"]] ∧
    (Material.read context (json ["A,B"])).map (·.shaders) = .ok [shader ["A,B"]] ∧
    (Material.read context (json ["A"])).map (·.shaders) = .ok [shader ["A"]] ∧
    (shader ["A", "B"]).identity = (shader ["A,B"]).identity := by
  decide +kernel

theorem inMaterial {defines : List String}
    (h : (Material.read context (json defines)).map (·.shaders) = .ok [shader defines]) :
    InMaterial (shader defines) := by
  obtain ⟨m, hm, hshaders⟩ := Result.map_eq_ok.1 h
  exact ⟨context, json defines, m, hm, hshaders ▸ List.mem_singleton_self _⟩

/-- The defines differ, and the names do not. -/
theorem one_name : ¬ ∀ s t : ShaderReference, InMaterial s → InMaterial t →
    (s.identity = t.identity ↔ SameParts s t) := by
  intro hall
  obtain ⟨htwo, hcomma, -, hname⟩ := evaluated
  have hparts := (hall _ _ (inMaterial htwo) (inMaterial hcomma)).1 hname
  exact absurd hparts.defines (by decide)

/-- Without a comma the names tell the defines apart. -/
theorem plain_names_differ : InMaterial (shader ["A", "B"]) ∧ InMaterial (shader ["A"]) ∧
    (shader ["A", "B"]).identity ≠ (shader ["A"]).identity := by
  obtain ⟨htwo, -, hone, -⟩ := evaluated
  refine ⟨inMaterial htwo, inMaterial hone, fun hname => ?_⟩
  have hparts := ((identity_eq_iff (inMaterial htwo) (inMaterial hone)).2.1
    ⟨by decide, by decide, by decide⟩ ⟨by decide, by decide, by decide⟩).1 hname
  exact absurd hparts.defines (by decide)

end CommaDefine

end ShaderReference

end RenderMaterials
