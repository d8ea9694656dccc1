import Mathlib.Data.String.Basic
import RenderMaterials.Proofs.Material.WellFormed

/-!
# Reading materials — defines of two sides

The defines of a shader are its own and the document's, in one sorted list, and of the entries of
one name the last counts.  So where a shader and its document both define a name, neither side has
precedence: the greater text counts.

* `Define.InForce`: what a name stands for is the value of an entry.
* `Define.inForce_of_last`: in a sorted list it is the greatest entry of its name.
* `ShaderReference.Contested`: one name, defined by the shader and by the document.
* `ShaderReference.greater_in_force`: the greater entry is in force.
* `ShaderReference.QualityDefine.sides_differ`: for one value the document's, for another the
  shader's.
-/

namespace RenderMaterials

/-! ### The last entry of a name -/

namespace Define

/-- The value of an entry is what its name stands for. -/
def InForce (s : Stage) (ds : List String) (d : String) : Prop :=
  (environment s ds).value? (split d).1 = some (split d).2

instance (s : Stage) (ds : List String) (d : String) : Decidable (InForce s ds d) :=
  inferInstanceAs (Decidable (_ = _))

theorem environment_value? (s : Stage) (ds : List String) (name : String) :
    (environment s ds).value? name =
      (Table.value? (ds.map split).reverse name).or
        (Table.value? [(s.name.toUpper, "")] name) := by
  rw [environment, ← Table.value?_foldl_assign, List.foldl_map]

/-- In a sorted list the greatest entry of a name stands behind all others of that name. -/
theorem inForce_of_last {ds : List String} (hs : ds.Pairwise (· < ·)) {d : String} (hd : d ∈ ds)
    (hlast : ∀ e ∈ ds, (split e).1 = (split d).1 → e ≤ d) (s : Stage) : InForce s ds d := by
  obtain ⟨front, behind, rfl⟩ := List.append_of_mem hd
  obtain ⟨-, hbehind, -⟩ := List.pairwise_append.1 hs
  have hother : Table.value? (behind.map split).reverse (split d).1 = none := by
    by_contra hsome
    obtain ⟨v, hv⟩ := Option.ne_none_iff_exists'.1 hsome
    obtain ⟨e, he, heq⟩ := List.mem_map.1 (List.mem_reverse.1 (Table.mem_of_value? hv))
    have hle := hlast e (by simp [he]) (by rw [heq])
    exact absurd ((List.pairwise_cons.1 hbehind).1 e he) (not_lt.2 hle)
  rw [InForce, environment_value?, List.map_append, List.map_cons, List.reverse_append,
    List.reverse_cons, List.append_assoc, Table.value?_append, hother]
  simp [Table.value?]

/-- Entries of one name are ordered as their values are. -/
theorem entry_lt_iff (name v w : String) : s!"{name}={v}" < s!"{name}={w}" ↔ v < w := by
  have hmono : StrictMono fun cs : List Char => (name.toList ++ ['=']) ++ cs :=
    fun _ _ h => List.Lex.append_left _ h _
  have htext : ∀ u : String, String.toList s!"{name}={u}" = (name.toList ++ ['=']) ++ u.toList := by
    intro u
    change (name ++ "=" ++ u).toList = _
    rw [String.toList_append, String.toList_append]
    rfl
  rw [String.lt_iff_toList_lt, String.lt_iff_toList_lt, htext, htext]
  exact hmono.lt_iff_lt

end Define

/-! ### A name that both sides define -/

namespace ShaderReference

open Define (InForce split)

/-- An entry of a shader's declaration and one of the document, of one name and with no other entry
of that name on either side. -/
structure Contested (ctx : ReadContext) (decl : Json) (d g : String) : Prop where
  own    : d ∈ declaredDefines decl
  shared : g ∈ ctx.globalDefines
  name   : (split g).1 = (split d).1
  only   : ∀ e ∈ declaredDefines decl ++ ctx.globalDefines, (split e).1 = (split d).1 →
    e = d ∨ e = g

variable {ctx : ReadContext} {material : String} {stage : Stage} {id? : Option String} {decl : Json}
  {shader : ShaderReference} {d g : String}

/-- The greater entry of the two is in force. -/
theorem Contested.greater (hc : Contested ctx decl d g)
    (h : ofDeclaration ctx material stage id? decl = .ok shader) (s : Stage) :
    InForce s shader.defines (max d g) := by
  obtain ⟨-, hdefines, -⟩ := parts_of_ofDeclaration h
  have hmem : ∀ e, e ∈ shader.defines ↔ e ∈ declaredDefines decl ++ ctx.globalDefines := by
    intro e
    rw [hdefines, Define.mem_toSet]
  have hname : (split (max d g)).1 = (split d).1 := by
    rcases max_choice d g with hmax | hmax
    · rw [hmax]
    · rw [hmax, hc.name]
  refine Define.inForce_of_last ?_ ((hmem _).2 ?_) ?_ s
  · rw [hdefines]
    exact Define.pairwise_toSet _
  · rcases max_choice d g with hmax | hmax
    · rw [hmax]
      exact List.mem_append_left _ hc.own
    · rw [hmax]
      exact List.mem_append_right _ hc.shared
  · intro e he hsame
    rcases hc.only e ((hmem e).1 he) (hsame.trans hname) with rfl | rfl
    · exact le_max_left e g
    · exact le_max_right d e

/-- What a name that both sides define stands for is the value of the greater entry, whichever side
it is from.  Of entries `NAME=v` of the shader and `NAME=w` of the document, with different values,
the shader's is in force exactly if `w < v`. -/
theorem greater_in_force (h : ofDeclaration ctx material stage id? decl = .ok shader)
    (hc : Contested ctx decl d g) (s : Stage) :
    InForce s shader.defines (max d g) ∧
    ∀ name v w : String, d = s!"{name}={v}" → g = s!"{name}={w}" → (split d).2 ≠ (split g).2 →
      (InForce s shader.defines d ↔ w < v) := by
  have hforce := hc.greater h s
  refine ⟨hforce, fun name v w hd hg hne => ?_⟩
  have hlt : w < v ↔ g < d := by
    rw [hd, hg, Define.entry_lt_iff]
  rw [hlt]
  constructor
  · intro hown
    by_contra hle
    rw [max_eq_right (not_lt.1 hle), InForce, hc.name] at hforce
    exact hne (Option.some.inj (hown.symm.trans hforce))
  · intro hgt
    rwa [max_eq_left hgt.le] at hforce

namespace QualityDefine

/-- A document that sets the quality to two. -/
def context : ReadContext where
  source        := (({} : MemorySource).insertText "lit.wgsl" "").toSource
  shaderRoot    := "."
  globalDefines := ["QUALITY=2"]

/-- A shader with a quality of its own. -/
def declaration (quality : String) : Json :=
  .object [("file", .text "lit.wgsl"), ("profile", .text "vs_6_0"),
    ("defines", .array [.text s!"QUALITY={quality}"])]

/-- What is read of it. -/
def shader? (quality : String) : Except MaterialError ShaderReference :=
  ofDeclaration context "m" .vertex none (declaration quality)

/-- A lower quality is hidden by the document's, and a higher one hides it. -/
theorem evaluated :
    ((split "QUALITY=2").1 = "QUALITY" ∧ (split "QUALITY=1").1 = "QUALITY" ∧
      (split "QUALITY=3").1 = "QUALITY") ∧
    ((split "QUALITY=1").2 ≠ (split "QUALITY=2").2 ∧
      (split "QUALITY=3").2 ≠ (split "QUALITY=2").2) ∧
    (shader? "1").map (·.defines) = .ok ["QUALITY=1", "QUALITY=2"] ∧
    (shader? "3").map (·.defines) = .ok ["QUALITY=2", "QUALITY=3"] ∧
    ¬ InForce .vertex ["QUALITY=1", "QUALITY=2"] "QUALITY=1" ∧
    InForce .vertex ["QUALITY=2", "QUALITY=3"] "QUALITY=3" := by
  decide +kernel

theorem contested (quality : String) (h : (split s!"QUALITY={quality}").1 = "QUALITY") :
    Contested context (declaration quality) s!"QUALITY={quality}" "QUALITY=2" := by
  obtain ⟨⟨htwo, -⟩, -⟩ := evaluated
  have hown : declaredDefines (declaration quality) = [s!"QUALITY={quality}"] := rfl
  refine ⟨?_, List.mem_singleton_self _, htwo.trans h.symm, fun e he _ => ?_⟩
  · rw [hown]
    exact List.mem_singleton_self _
  · rw [hown] at he
    simpa [context] using he

/-- The side that counts is not the same for all values. -/
theorem sides_differ : ¬ ∀ (ctx ctx' : ReadContext) (material : String) (stage s : Stage)
    (id? : Option String) (decl decl' : Json) (shader shader' : ShaderReference)
    (name v w x y : String),
    ofDeclaration ctx material stage id? decl = .ok shader →
    Contested ctx decl s!"{name}={v}" s!"{name}={w}" → v ≠ w →
    ofDeclaration ctx' material stage id? decl' = .ok shader' →
    Contested ctx' decl' s!"{name}={x}" s!"{name}={y}" → x ≠ y →
    (InForce s shader.defines s!"{name}={v}" ↔ InForce s shader'.defines s!"{name}={x}") := by
  intro hall
  obtain ⟨⟨-, hlow, hhigh⟩, -, h, h', hhidden, hforce⟩ := evaluated
  obtain ⟨low, hread, hdefines⟩ := Result.map_eq_ok.1 h
  obtain ⟨high, hread', hdefines'⟩ := Result.map_eq_ok.1 h'
  have hiff := hall context context "m" .vertex .vertex none _ _ low high "QUALITY" "1" "2" "3" "2"
    hread (contested "1" hlow) (by decide) hread' (contested "3" hhigh) (by decide)
  rw [hdefines, hdefines'] at hiff
  exact hhidden (hiff.2 hforce)

/-- Three is greater than two, and so it is the shader's that counts. -/
theorem higher_quality_in_force :
    ∃ shader, shader? "3" = .ok shader ∧ InForce .vertex shader.defines "QUALITY=3" := by
  obtain ⟨⟨-, -, hhigh⟩, ⟨-, hne⟩, -, h, -⟩ := evaluated
  obtain ⟨shader, hread, -⟩ := Result.map_eq_ok.1 h
  have hsides := (greater_in_force hread (contested "3" hhigh) .vertex).2 "QUALITY" "3" "2"
    rfl rfl hne
  exact ⟨shader, hread, hsides.2 (by decide)⟩

end QualityDefine

end ShaderReference

end RenderMaterials
