import RenderMaterials.Spelled
import RenderMaterials.Text.Split

/-!
# Shader stages

The stages of a pipeline, their names in documents, and target profiles such as `ps_6_0`: the prefix
of a stage, a major and a minor version.
-/

namespace RenderMaterials

/-- A pipeline stage. -/
inductive Stage where
  | vertex | pixel | domain | hull | geometry | compute
  deriving DecidableEq, Repr, Inhabited

namespace Stage

/-- Every stage, in pipeline order. -/
def pipelineOrder : List Stage := [.vertex, .hull, .domain, .geometry, .pixel, .compute]

/-- The name of a stage. -/
def name : Stage → String
  | vertex   => "vertex"
  | pixel    => "pixel"
  | domain   => "domain"
  | hull     => "hull"
  | geometry => "geometry"
  | compute  => "compute"

instance : Spelled Stage where
  all := pipelineOrder
  name := name
  complete a := by cases a <;> decide
  injective a b := by cases a <;> cases b <;> decide

/-- The stage of a name in any letter case; `fragment` is another name of `pixel`. -/
def ofName? (s : String) : Option Stage :=
  if s.toLower = "fragment" then some pixel else Spelled.ofName? s.toLower

/-- The first part of a stage's profiles. -/
def profileLead : Stage → String
  | vertex   => "vs"
  | pixel    => "ps"
  | domain   => "ds"
  | hull     => "hs"
  | geometry => "gs"
  | compute  => "cs"

/-- The parts of a profile. -/
def profileParts (profile : String) : List String := Text.pieces (· = '_') profile

/-- The stage that a profile's first part names. -/
def ofProfile? (profile : String) : Option Stage :=
  pipelineOrder.find? (fun s => (profileParts profile).head? = some s.profileLead)

/-- A non-empty run of decimal digits. -/
def isVersion (s : String) : Bool := s ≠ "" && s.toList.all Char.isDigit

/-- Whether a profile belongs to a stage and has two versions. -/
def acceptsProfile (s : Stage) (profile : String) : Bool :=
  match profileParts profile with
  | [lead, major, minor] => lead = s.profileLead && isVersion major && isVersion minor
  | _                    => false

/-- The number of a stage in cache keys. -/
def tag : Stage → Nat
  | vertex   => 0
  | pixel    => 1
  | domain   => 2
  | hull     => 3
  | geometry => 4
  | compute  => 5

end Stage

/-- A set of stages; the bit of a stage is the one at its tag. -/
structure StageSet where
  bits : BitVec 6
  deriving DecidableEq, Repr

namespace StageSet

def empty : StageSet := ⟨0⟩

def single (s : Stage) : StageSet := ⟨1 <<< s.tag⟩

def union (a b : StageSet) : StageSet := ⟨a.bits ||| b.bits⟩

def contains (a : StageSet) (s : Stage) : Bool := a.bits.getLsbD s.tag

/-- The set of the stages in a list. -/
def ofList (ss : List Stage) : StageSet := ss.foldl (fun a s => a.union (single s)) empty

/-- The set as a number. -/
def toNat (a : StageSet) : Nat := a.bits.toNat

/-- The set with the low bits of a number. -/
def ofNat (n : Nat) : StageSet := ⟨BitVec.ofNat 6 n⟩

theorem union_comm (a b : StageSet) : a.union b = b.union a := by
  simp [union, BitVec.or_comm]

theorem union_assoc (a b c : StageSet) : (a.union b).union c = a.union (b.union c) := by
  simp [union, BitVec.or_assoc]

@[simp] theorem union_self (a : StageSet) : a.union a = a := by simp [union]

@[simp] theorem union_empty (a : StageSet) : a.union empty = a := by simp [union, empty]

@[simp] theorem contains_union (a b : StageSet) (s : Stage) :
    (a.union b).contains s = (a.contains s || b.contains s) := by
  simp [union, contains]

/-- A set is known by its stages. -/
theorem ext_contains {a b : StageSet} (h : ∀ s, a.contains s = b.contains s) : a = b := by
  have hbits : a.bits = b.bits := by
    refine BitVec.eq_of_getLsbD_eq fun i hi => ?_
    have htag : ∃ s : Stage, s.tag = i := by
      match i, hi with
      | 0, _ => exact ⟨.vertex, rfl⟩
      | 1, _ => exact ⟨.pixel, rfl⟩
      | 2, _ => exact ⟨.domain, rfl⟩
      | 3, _ => exact ⟨.hull, rfl⟩
      | 4, _ => exact ⟨.geometry, rfl⟩
      | 5, _ => exact ⟨.compute, rfl⟩
    obtain ⟨s, rfl⟩ := htag
    exact h s
  cases a
  cases b
  exact congrArg StageSet.mk hbits

end StageSet

end RenderMaterials
