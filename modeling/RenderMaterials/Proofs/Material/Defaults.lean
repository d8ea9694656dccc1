import RenderMaterials.Material.Read
import RenderMaterials.Proofs.Result
import Mathlib.Algebra.Group.Int.Defs

/-!
# Reading materials — defaults of parameters

The default of a parameter is looked at twice: its declaration is accepted when the default has the
form of the declared type, and then it is made a value of this type.  An integer of 64 bits without
a sign has the form of an `int`, but the values of this type have a sign.

* `ParameterType.value?_isSome_iff`: a value of the form of a type is made a value of the type,
  unless it is an integer that is too large.
* `Parameter.default_kept_iff`: so of an accepted declaration the default is kept, with this
  exception.
* `Parameter.LargeLevel.large_default_dropped`: the smallest integer that is too large.
-/

namespace RenderMaterials

/-! ### Values of a type -/

/-- The type of a value. -/
def ParameterValue.type : ParameterValue → ParameterType
  | .float _   => .float
  | .int _     => .int
  | .bool _    => .bool
  | .float4 .. => .float4

namespace ParameterType

variable {t : ParameterType} {v : Json} {x : ParameterValue}

/-- An integer that no value of the declared type `int` can be. -/
def Exceeds (t : ParameterType) (v : Json) : Prop :=
  t = .int ∧ ∃ n, v.integer? = some n ∧ (2 ^ 63 : Int) ≤ n

theorem single?_isSome (v : Json) : (single? v).isSome = v.isNumber := by
  rw [single?, Option.isSome_map, Json.isNumber]

theorem int64?_isSome_iff (v : Json) :
    v.int64?.isSome = true ↔ v.integer?.isSome = true ∧ ¬ Exceeds .int v := by
  unfold Json.int64?
  cases hn : v.integer? with
  | none => simp
  | some n => simp [Exceeds, hn]

/-- Four numbers, and nothing else, make a value of the type `float4`. -/
theorem value?_float4_eq_some : float4.value? v = some x ↔
    ∃ a b c d, v.array? = some [a, b, c, d] ∧ ∃ p q r s, single? a = some p ∧
      single? b = some q ∧ single? c = some r ∧ single? d = some s ∧ x = .float4 p q r s := by
  simp only [value?]
  constructor
  · intro h
    split at h
    · next a b c d hv =>
        simp only [Option.bind_eq_bind, Option.bind_eq_some_iff] at h
        obtain ⟨p, hp, q, hq, r, hr, s, hs, h⟩ := h
        exact ⟨a, b, c, d, hv, p, q, r, s, hp, hq, hr, hs, (Option.some.inj h).symm⟩
    · cases h
  · rintro ⟨a, b, c, d, hv, p, q, r, s, hp, hq, hr, hs, rfl⟩
    simp only [hv, hp, hq, hr, hs]
    rfl

/-- Values have the form `float4` when they are arrays of four numbers. -/
theorem accepts_float4_iff : float4.accepts v = true ↔
    ∃ a b c d, v.array? = some [a, b, c, d] ∧ ∀ u ∈ [a, b, c, d], u.isNumber = true := by
  simp only [accepts]
  cases v.array? with
  | none => simp
  | some items =>
      simp only [Bool.and_eq_true, decide_eq_true_eq, List.all_eq_true, Option.some.injEq]
      constructor
      · rintro ⟨hlen, hall⟩
        obtain ⟨a, b, c, d, rfl⟩ := List.length_eq_four.1 hlen
        exact ⟨a, b, c, d, rfl, hall⟩
      · rintro ⟨a, b, c, d, rfl, hall⟩
        exact ⟨rfl, hall⟩

/-- A value of the form of a type is made a value of the type, unless it is too large. -/
theorem value?_isSome_iff (t : ParameterType) (v : Json) :
    (t.value? v).isSome = true ↔ t.accepts v = true ∧ ¬ t.Exceeds v := by
  cases t with
  | float => simp [value?, accepts, single?_isSome, Exceeds]
  | int => simp [value?, accepts, int64?_isSome_iff]
  | bool => simp [value?, accepts, Exceeds]
  | float4 =>
      have hsingle : ∀ u : Json, u.isNumber = true ↔ ∃ p, single? u = some p := fun u => by
        rw [← single?_isSome, Option.isSome_iff_exists]
      have hno : ¬ Exceeds .float4 v := by simp [Exceeds]
      simp only [hno, not_false_eq_true, and_true, accepts_float4_iff, hsingle,
        Option.isSome_iff_exists, value?_float4_eq_some, List.forall_mem_cons]
      constructor
      · rintro ⟨x, a, b, c, d, hv, p, q, r, s, hp, hq, hr, hs, rfl⟩
        exact ⟨a, b, c, d, hv, ⟨p, hp⟩, ⟨q, hq⟩, ⟨r, hr⟩, ⟨s, hs⟩, by simp⟩
      · rintro ⟨a, b, c, d, hv, ⟨p, hp⟩, ⟨q, hq⟩, ⟨r, hr⟩, ⟨s, hs⟩, -⟩
        exact ⟨_, a, b, c, d, hv, p, q, r, s, hp, hq, hr, hs, rfl⟩

/-- What is made a value of a type is of this type. -/
theorem type_of_value? (h : t.value? v = some x) : x.type = t := by
  cases t with
  | float =>
      obtain ⟨y, -, rfl⟩ := Option.map_eq_some_iff.1 h
      rfl
  | int =>
      obtain ⟨y, -, rfl⟩ := Option.map_eq_some_iff.1 h
      rfl
  | bool =>
      obtain ⟨y, -, rfl⟩ := Option.map_eq_some_iff.1 h
      rfl
  | float4 =>
      obtain ⟨a, b, c, d, -, p, q, r, s, -, -, -, -, rfl⟩ := value?_float4_eq_some.1 h
      rfl

end ParameterType

/-! ### Declarations -/

namespace Parameter

variable {v d : Json} {type : ParameterType}

/-- An accepted declaration has a default of the form of its type, if it has one. -/
theorem accepts_of_check (hc : check v = .ok type) (hd : declaredDefault? v = some d) :
    type.accepts d = true := by
  unfold check at hc
  dsimp only at hc
  split at hc
  · cases hc
  · split at hc
    · cases hc
    · rw [hd] at hc
      dsimp only at hc
      split at hc
      · next h => exact Except.ok.inj hc ▸ h
      · cases hc

/-- An accepted declaration is read as soon as it has a name. -/
theorem read_of_check (hc : check v = .ok type) :
    read v = match v.textField? "name" with
      | some name => .ok ⟨name, type, (declaredDefault? v).bind type.value?⟩
      | none      => .error (.missingField "parameter" "name") := by
  unfold read Json.requiredText
  rw [hc]
  cases v.textField? "name" <;> rfl

/-- The form of a type and its values agree on everything but integers that are too large.  So a
declaration that is accepted, and has a name to be read by, keeps its default as a value of its
type, unless the default is such an integer: then the parameter is read as if it had none. -/
theorem default_kept_iff (t : ParameterType) (d v : Json) :
    ((t.value? d).isSome = true ↔ t.accepts d = true ∧ ¬ t.Exceeds d) ∧
    (check v = .ok t → declaredDefault? v = some d →
      (v.textField? "name" = none → read v = .error (.missingField "parameter" "name")) ∧
      ∀ name, v.textField? "name" = some name → ∃ p, read v = .ok p ∧ p.name = name ∧
        p.type = t ∧ p.defaultValue? = t.value? d ∧
        (∀ x, p.defaultValue? = some x → x.type = t) ∧
        (p.defaultValue? = none ↔ t.Exceeds d)) := by
  have hsome := ParameterType.value?_isSome_iff t d
  refine ⟨hsome, fun hc hd => ⟨fun hn => ?_, fun name hn => ?_⟩⟩
  · rw [read_of_check hc, hn]
  · have hread : read v = .ok ⟨name, t, t.value? d⟩ := by
      rw [read_of_check hc, hn, hd, Option.bind_some]
    refine ⟨_, hread, rfl, rfl, rfl, fun x hx => ParameterType.type_of_value? hx, ?_⟩
    rw [accepts_of_check hc hd] at hsome
    rw [← Option.not_isSome_iff_eq_none, hsome]
    simp

/-! ### A level at the edge -/

namespace LargeLevel

def declaration (level : Int) : Json :=
  .object [("name", .text "level"), ("type", .text "int"),
    ("default", .number (.integer level))]

theorem check_declaration (level : Int) : check (declaration level) = .ok .int := rfl

theorem default_declaration (level : Int) :
    declaredDefault? (declaration level) = some (.number (.integer level)) := rfl

/-- One more than the largest value: it has the form of an `int` and is no value, and the default is
lost. -/
theorem large_default_dropped :
    (¬ ∀ (t : ParameterType) (v : Json), t.accepts v = true ↔ (t.value? v).isSome = true) ∧
    ¬ ∀ v type d name, check v = .ok type → declaredDefault? v = some d →
      v.textField? "name" = some name →
      ∃ p x, read v = .ok p ∧ p.defaultValue? = some x ∧ x.type = type := by
  have hnone : ParameterType.int.value? (.number (.integer (2 ^ 63))) = none := by decide
  constructor
  · intro hall
    have haccepts : ParameterType.int.accepts (.number (.integer (2 ^ 63))) = true := rfl
    have hsome := (hall .int _).1 haccepts
    rw [hnone] at hsome
    cases hsome
  · intro hall
    obtain ⟨p, x, hp, hx, -⟩ :=
      hall _ _ _ "level" (check_declaration (2 ^ 63)) (default_declaration (2 ^ 63)) rfl
    have hread : read (declaration (2 ^ 63)) = .ok ⟨"level", .int, none⟩ := by
      rw [read_of_check (check_declaration _), default_declaration, Option.bind_some, hnone]
      rfl
    obtain rfl := Except.ok.inj (hread.symm.trans hp)
    cases hx

/-- The largest value is kept, and one more is not. -/
theorem largest_default_kept :
    (∃ p, read (declaration (2 ^ 63 - 1)) = .ok p ∧ p.defaultValue? = some (.int (2 ^ 63 - 1))) ∧
    ∃ p, read (declaration (2 ^ 63)) = .ok p ∧ p.defaultValue? = none := by
  obtain ⟨p, hp, -, -, hvalue, -⟩ := ((default_kept_iff _ _ _).2
    (check_declaration (2 ^ 63 - 1)) (default_declaration _)).2 "level" rfl
  obtain ⟨q, hq, -, -, -, -, hnone⟩ := ((default_kept_iff _ _ _).2
    (check_declaration (2 ^ 63)) (default_declaration _)).2 "level" rfl
  exact ⟨⟨p, hp, hvalue⟩, q, hq, hnone.2 ⟨rfl, 2 ^ 63, rfl, Int.le_refl _⟩⟩

end LargeLevel

end Parameter

end RenderMaterials
