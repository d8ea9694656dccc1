import RenderMaterials.Proofs.Result
import RenderMaterials.Proofs.Source.Canonical
import Mathlib.Data.List.Induction

/-!
# Sources in memory — histories

A source in memory is a map of canonical paths.  Whatever was done to it, a path leads to the data
that were put last under some spelling of it and that no removal took away since, under any
spelling.  A path without a canonical form is kept as it is written beside these; a canonical path
is its own canonical form, so that the two kinds of key are never equal and nothing finds it.

* `Command`, `ofHistory`: what can be done to a source, and what it is after that.
* `Holds`: the data that a history leaves under a canonical path.
* `value?_perform`: what one command does to what is kept under a canonical path.
* `value?_ofHistory`: what a whole history leaves there.
* `answers_after`: what is read, found and removed after a history.
* `Repainted.answers_repainted`: a file under three spellings, and one that is never found.
-/

namespace RenderMaterials.MemorySource

variable {m : MemorySource} {path q : String} {data : Bytes}

/-! ### Commands -/

/-- What can be done to a source.  All clones of a source have one store, so that it does not matter
which of them a command is given to. -/
inductive Command where
  | insert (path : String) (data : Bytes)
  | remove (path : String)
  | read (path : String)
  | contains (path : String)
  deriving DecidableEq, Repr

/-- A source after a command. -/
def perform (m : MemorySource) : Command → MemorySource
  | .insert path data => m.insert path data
  | .remove path      => (m.remove path).2
  | .read _           => m
  | .contains _       => m

/-- An empty source after commands in order. -/
def ofHistory (history : List Command) : MemorySource := history.foldl perform {}

/-- A command puts or removes the file of a canonical path, however it spells the path. -/
def Command.Touches (q : String) : Command → Prop
  | .insert path _ => Path.normalize path = .ok q
  | .remove path   => Path.normalize path = .ok q
  | .read _        => False
  | .contains _    => False

instance (q : String) (c : Command) : Decidable (c.Touches q) :=
  match c with
  | .insert _ _ => inferInstanceAs (Decidable (_ = _))
  | .remove _   => inferInstanceAs (Decidable (_ = _))
  | .read _     => inferInstanceAs (Decidable False)
  | .contains _ => inferInstanceAs (Decidable False)

/-- The latest command that touches a canonical path puts data there. -/
def Holds (history : List Command) (q : String) (data : Bytes) : Prop :=
  ∃ before path after, history = before ++ .insert path data :: after ∧
    Path.normalize path = .ok q ∧ ∀ c ∈ after, ¬ c.Touches q

/-! ### Canonical paths -/

/-- A path without a canonical form is no canonical path. -/
theorem ne_of_normalize_error {e : MaterialError} (h : Path.normalize path = .error e)
    (hq : Path.normalize q = .ok q) : path ≠ q := by
  rintro rfl
  rw [hq] at h
  cases h

/-- What is put is kept under the canonical form, and nothing else changes under any. -/
theorem value?_insert (m : MemorySource) (path : String) (data : Bytes)
    (hq : Path.normalize q = .ok q) :
    (Path.normalize path = .ok q ∧ (m.insert path data).files.value? q = some data) ∨
      (Path.normalize path ≠ .ok q ∧ (m.insert path data).files.value? q = m.files.value? q) := by
  unfold MemorySource.insert place
  cases hp : Path.normalize path with
  | error e =>
      refine .inr ⟨by simp, ?_⟩
      exact Table.value?_assign_other m.files data (ne_of_normalize_error hp hq)
  | ok p =>
      by_cases hpq : p = q
      · subst hpq
        exact .inl ⟨rfl, Table.value?_assign_same m.files p data⟩
      · exact .inr ⟨by simpa using hpq, Table.value?_assign_other m.files data hpq⟩

/-- What is removed is gone under the canonical form, and nothing else changes under any. -/
theorem value?_remove (m : MemorySource) (path q : String) :
    (Path.normalize path = .ok q ∧ (m.remove path).2.files.value? q = none) ∨
      (Path.normalize path ≠ .ok q ∧ (m.remove path).2.files.value? q = m.files.value? q) := by
  unfold MemorySource.remove
  cases hp : Path.normalize path with
  | error e => exact .inr ⟨by simp, rfl⟩
  | ok p =>
      by_cases hpq : p = q
      · subst hpq
        exact .inl ⟨rfl, Table.value?_without_same m.files p⟩
      · exact .inr ⟨by simpa using hpq, Table.value?_without_other m.files hpq⟩

/-- What is kept under a canonical path after one more command: the data that it puts there, or what
was kept before if it does not touch the path. -/
theorem value?_perform (m : MemorySource) (c : Command) (hq : Path.normalize q = .ok q) :
    (m.perform c).files.value? q = some data ↔
      (∃ path, c = .insert path data ∧ Path.normalize path = .ok q) ∨
        m.files.value? q = some data ∧ ¬ c.Touches q := by
  cases c with
  | insert path data' =>
      rcases value?_insert m path data' hq with ⟨hp, hv⟩ | ⟨hp, hv⟩
      · simp [perform, Command.Touches, hp, hv]
      · simp [perform, Command.Touches, hp, hv]
  | remove path =>
      rcases value?_remove m path q with ⟨hp, hv⟩ | ⟨hp, hv⟩
      · simp [perform, Command.Touches, hp, hv]
      · simp [perform, Command.Touches, hp, hv]
  | read path => simp [perform, Command.Touches]
  | contains path => simp [perform, Command.Touches]

/-! ### Histories -/

theorem ofHistory_concat (history : List Command) (c : Command) :
    ofHistory (history ++ [c]) = (ofHistory history).perform c := by
  simp [ofHistory]

theorem not_holds_nil : ¬ Holds [] q data := by
  rintro ⟨before, path, after, h, -⟩
  simp at h

/-- One more command puts data, or leaves those that were there. -/
theorem holds_concat {history : List Command} {c : Command} :
    Holds (history ++ [c]) q data ↔
      (∃ path, c = .insert path data ∧ Path.normalize path = .ok q) ∨
        Holds history q data ∧ ¬ c.Touches q := by
  constructor
  · rintro ⟨before, path, after, h, hp, hafter⟩
    rcases List.eq_nil_or_concat after with rfl | ⟨after, last, rfl⟩
    · obtain ⟨-, hc⟩ := List.append_inj' h rfl
      exact .inl ⟨path, List.singleton_inj.1 hc, hp⟩
    · rw [List.concat_eq_append, ← List.cons_append, ← List.append_assoc] at h
      obtain ⟨rfl, hc⟩ := List.append_inj' h rfl
      obtain rfl := List.singleton_inj.1 hc
      refine .inr ⟨⟨before, path, after, rfl, hp, fun d hd => hafter d ?_⟩, hafter c ?_⟩
      · simp [hd]
      · simp
  · rintro (⟨path, rfl, hp⟩ | ⟨⟨before, path, after, rfl, hp, hafter⟩, hc⟩)
    · exact ⟨history, path, [], rfl, hp, by simp⟩
    · refine ⟨before, path, after ++ [c], by simp, hp, fun d hd => ?_⟩
      rcases List.mem_append.1 hd with hd | hd
      · exact hafter d hd
      · exact List.mem_singleton.1 hd ▸ hc

/-- What a history leaves under a canonical path. -/
theorem value?_ofHistory (history : List Command) (hq : Path.normalize q = .ok q) :
    (ofHistory history).files.value? q = some data ↔ Holds history q data := by
  -- the latest command decides, or leaves it to those in front of it
  induction history using List.reverseRecOn with
  | nil => simp [ofHistory, not_holds_nil]
  | append_singleton history c ih => rw [ofHistory_concat, value?_perform _ c hq, holds_concat, ih]

/-! ### Answers -/

theorem read_eq (hp : Path.normalize path = .ok q) :
    m.read path = match m.files.value? q with
      | some data => .ok data
      | none      => .error (.fileNotFound q) := by
  unfold MemorySource.read
  rw [hp]
  rfl

theorem read_of_error {e : MaterialError} (hp : Path.normalize path = .error e) :
    m.read path = .error e := by
  unfold MemorySource.read
  rw [hp]
  rfl

theorem read_eq_ok (hp : Path.normalize path = .ok q) :
    m.read path = .ok data ↔ m.files.value? q = some data := by
  rw [read_eq hp]
  cases m.files.value? q <;> simp

/-- A file is there when it can be read. -/
theorem contains_eq (m : MemorySource) (path : String) :
    m.contains path = (m.read path).isOk := by
  unfold MemorySource.contains
  cases hp : Path.normalize path with
  | error e => rw [read_of_error hp]; rfl
  | ok q =>
      rw [read_eq hp]
      dsimp only [Table.has]
      cases m.files.value? q <;> rfl

/-- What is removed is what can be read. -/
theorem remove_fst (m : MemorySource) (path : String) :
    (m.remove path).1 = (m.read path).toOption := by
  unfold MemorySource.remove
  cases hp : Path.normalize path with
  | error e => rw [read_of_error hp]; rfl
  | ok q =>
      rw [read_eq hp]
      dsimp only
      cases m.files.value? q <;> rfl

/-- What is put under a path without a canonical form is not seen under any path. -/
theorem read_insert_of_error {e : MaterialError} (m : MemorySource) (data : Bytes)
    (hp : Path.normalize path = .error e) (other : String) :
    (m.insert path data).read other = m.read other := by
  cases ho : Path.normalize other with
  | error e => rw [read_of_error ho, read_of_error ho]
  | ok q =>
      have hsame : (m.insert path data).files.value? q = m.files.value? q := by
        rcases value?_insert m path data (Path.normalize_idempotent ho) with
          ⟨hq, -⟩ | ⟨-, hv⟩
        · rw [hp] at hq
          cases hq
        · exact hv
      rw [read_eq ho, read_eq ho, hsame]

/-- After every history: a path with a canonical form is read as the data of the latest insert whose
path has the same form, unless a removal under some spelling came after it, and otherwise not found
under that form; a file is there exactly when it can be read; a path without a canonical form is
never found and takes nothing away, and inserting at one changes no answer for any path; a removal
gives what would have been read, or nothing. -/
theorem answers_after (history : List Command) :
    (∀ path q, Path.normalize path = .ok q →
      (∀ data, (ofHistory history).read path = .ok data ↔ Holds history q data) ∧
      ((∀ data, ¬ Holds history q data) →
        (ofHistory history).read path = .error (.fileNotFound q))) ∧
    (∀ path, (ofHistory history).contains path = true ↔
      ∃ data, (ofHistory history).read path = .ok data) ∧
    (∀ path e, Path.normalize path = .error e →
      (ofHistory history).read path = .error e ∧ (ofHistory history).contains path = false ∧
      (ofHistory history).remove path = (none, ofHistory history) ∧
      ∀ data other,
        ((ofHistory history).insert path data).read other = (ofHistory history).read other ∧
        ((ofHistory history).insert path data).contains other =
          (ofHistory history).contains other) ∧
    ∀ path, ((ofHistory history).remove path).1 = ((ofHistory history).read path).toOption := by
  refine ⟨fun path q hp => ?_, fun path => ?_, fun path e hp => ?_, fun path => remove_fst _ path⟩
  · have hv : ∀ data, (ofHistory history).files.value? q = some data ↔ Holds history q data :=
      fun _ => value?_ofHistory history (Path.normalize_idempotent hp)
    refine ⟨fun data => (read_eq_ok hp).trans (hv data), fun hnone => ?_⟩
    have hmissing : (ofHistory history).files.value? q = none :=
      Option.eq_none_iff_forall_ne_some.2 fun data hd => hnone data ((hv data).1 hd)
    rw [read_eq hp, hmissing]
  · rw [contains_eq, Result.isOk_iff]
  · have hread : (ofHistory history).read path = .error e := read_of_error hp
    refine ⟨hread, by rw [contains_eq, hread]; rfl, ?_, fun data other => ?_⟩
    · unfold MemorySource.remove
      rw [hp]
    · have hsame := read_insert_of_error (ofHistory history) data hp other
      exact ⟨hsame, by rw [contains_eq, contains_eq, hsame]⟩

/-! ### A file under several spellings -/

namespace Repainted

/-- A shader is put twice and read under a third spelling; another one leaves the source, and a
third one is taken away. -/
def history : List Command :=
  [.insert "fx/lit.wgsl" [1], .insert "fx\\sky.wgsl" [2], .insert "./fx//lit.wgsl" [3],
    .insert "../lit.wgsl" [4], .remove "fx/./sky.wgsl", .read "fx/lit.wgsl"]

theorem normalized : Path.normalize "fx/old/../lit.wgsl" = .ok "fx/lit.wgsl" ∧
    Path.normalize "../lit.wgsl" =
      .error (.invalidPath "../lit.wgsl" "escapes the source root") := by
  decide +kernel

theorem answers_repainted :
    (ofHistory history).read "fx/old/../lit.wgsl" = .ok [3] ∧
    (ofHistory history).read "../lit.wgsl" =
      .error (.invalidPath "../lit.wgsl" "escapes the source root") := by
  obtain ⟨hread, -, hnever, -⟩ := answers_after history
  refine ⟨((hread _ _ normalized.1).1 [3]).2 ?_, (hnever _ _ normalized.2).1⟩
  refine ⟨[.insert "fx/lit.wgsl" [1], .insert "fx\\sky.wgsl" [2]], "./fx//lit.wgsl",
    [.insert "../lit.wgsl" [4], .remove "fx/./sky.wgsl", .read "fx/lit.wgsl"], rfl, ?_⟩
  decide +kernel

end Repainted

end RenderMaterials.MemorySource
