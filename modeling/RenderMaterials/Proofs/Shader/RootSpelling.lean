import RenderMaterials.Proofs.Shader.Expansion
import RenderMaterials.Proofs.Source.Directories
import RenderMaterials.Source.Directory
import Mathlib.Algebra.GroupWithZero.Nat

/-!
# Shader includes — how the root is spelled

A source finds a file under each spelling of its path, and a shader may be asked for under any.  The
files that were put in are told apart by their canonical paths, but the root is kept as it was
spelled: an include line that comes back to it puts it in once more.

* `Source.ReadsCanonically`: a source reads a file alike under all spellings.
* `Lays.respelled`: a file that is seen alike from two spellings is laid out alike.
* `Lays.length_shown`: how many lines a layout has.
* `entered_perm`: a root that include lines come back to is put in under its canonical path.
* `processed_agree_iff`: the text of a shader is the same under the canonical path of its file, if
  its include lines are seen alike and none leads back to it.
* `Mirror.root_spelling_matters`: a shader that names itself.
-/

namespace RenderMaterials

/-! ### Sources -/

/-- A file is read alike under its canonical path and any other spelling. -/
def Source.ReadsCanonically (src : Source) : Prop :=
  ∀ p q, Path.normalize p = .ok q → src.read p = src.read q

theorem Source.ReadsCanonically.readText {src : Source} {p q : String}
    (h : src.ReadsCanonically) (hn : Path.normalize p = .ok q) :
    Result.Agree (src.readText p) (src.readText q) := by
  intro text
  unfold Source.readText
  rw [h p q hn]
  cases src.read q with
  | error e => simp
  | ok data => cases hd : Text.decodeUtf8 data <;> simp [hd]

theorem MemorySource.readsCanonically (m : MemorySource) : m.toSource.ReadsCanonically := by
  intro p q h
  change m.read p = m.read q
  unfold MemorySource.read
  rw [h, Path.normalize_idempotent h]

theorem DirectorySource.readsCanonically (s : DirectorySource) (d : Disk) :
    (s.toSource d).ReadsCanonically := by
  intro p q h
  change s.read d p = s.read d q
  unfold DirectorySource.read DirectorySource.resolve
  rw [h, Path.normalize_idempotent h]

namespace Include

variable {src : Source} {f q path : String} {ls : List (String × Nat)} {ps qs : List Piece}

/-! ### Files under two spellings -/

/-- Each include line of a file names the same, seen from either of two paths. -/
def SeenAlike (src : Source) (f q : String) : Prop :=
  ∀ text, src.readText q = .ok text → ∀ l ∈ Text.lines text, ∀ target, target? l = some target →
    Result.Agree (Path.resolveInclude f target) (Path.resolveInclude q target)

theorem SeenAlike.leads_iff (h : SeenAlike src f q)
    (hr : Result.Agree (src.readText f) (src.readText q)) (path : String) :
    Leads src f path ↔ Leads src q path := by
  refine exists_congr fun text => exists_congr fun l => exists_congr fun target => ?_
  rw [hr text]
  exact and_congr_right fun ht => and_congr_right fun hl => and_congr_right fun htarget =>
    h text ht l hl target htarget path

theorem SeenAlike.transGen_iff (h : SeenAlike src f q)
    (hr : Result.Agree (src.readText f) (src.readText q)) (path : String) :
    Relation.TransGen (Leads src) f path ↔ Relation.TransGen (Leads src) q path := by
  rw [Relation.TransGen.head'_iff, Relation.TransGen.head'_iff]
  exact exists_congr fun g => and_congr_left fun _ => h.leads_iff hr g

/-- What include lines lead to has a canonical path. -/
theorem canonical_of_transGen (h : Relation.TransGen (Leads src) f path) :
    Path.normalize path = .ok path := by
  obtain ⟨g, -, hstep⟩ := Relation.TransGen.tail'_iff.1 h
  exact hstep.canonical

/-- No include line leads to a spelling that is not canonical. -/
theorem ne_of_transGen {g : String} (hn : Path.normalize f = .ok q) (hne : f ≠ q)
    (h : Relation.TransGen (Leads src) g path) : path ≠ f := by
  rintro rfl
  exact hne (Except.ok.inj ((canonical_of_transGen h).symm.trans hn))

/-! ### Layouts under two spellings -/

/-- The lines of a file under another spelling, seen alike, have the same layout but for the name of
the file. -/
theorem Lays.respelled {f' : String} (h : Lays src f ls ps)
    (hseen : ∀ l ∈ ls, ∀ target path, target? l.1 = some target →
      Path.resolveInclude f target = .ok path → Path.resolveInclude f' target = .ok path) :
    ∃ qs, Lays src f' ls qs ∧ shown qs = shown ps ∧ named qs = named ps ∧
      ∀ known, FirstOnly known ps → FirstOnly known qs := by
  induction h with
  | nil => exact ⟨[], .nil, rfl, rfl, fun _ _ => trivial⟩
  | line ht _ ih =>
      obtain ⟨qs, hl, hshown, hnamed, hfirst⟩ := ih fun l hl => hseen l (List.mem_cons_of_mem _ hl)
      exact ⟨_, .line ht hl, congrArg (_ :: ·) hshown, hnamed, hfirst⟩
  | @skip file l target path n ls ps ht hp _ ih =>
      obtain ⟨qs, hl, hshown, hnamed, hfirst⟩ := ih fun l hl => hseen l (List.mem_cons_of_mem _ hl)
      have hp' := hseen _ List.mem_cons_self target path ht hp
      exact ⟨_, .skip ht hp' hl, hshown, congrArg (path :: ·) hnamed,
        fun known hk => ⟨hk.1, hfirst _ hk.2⟩⟩
  | @put file l target path text n ls inner ps ht hp hr hin _ _ ih =>
      obtain ⟨qs, hl, hshown, hnamed, hfirst⟩ := ih fun l hl => hseen l (List.mem_cons_of_mem _ hl)
      have hp' := hseen _ List.mem_cons_self target path ht hp
      refine ⟨_, .put ht hp' hr hin hl, ?_, ?_, fun known hk => ?_⟩
      · rw [shown_put, shown_put, hshown]
      · rw [named_put, named_put, hnamed]
      · obtain ⟨hnew, hk₁, hk₂⟩ := FirstOnly.put_iff.1 hk
        exact FirstOnly.put_iff.2 ⟨hnew, hk₁, hfirst _ hk₂⟩

/-- A text is laid out alike under another spelling of its root, if no include line leads to either
spelling. -/
theorem LaidOut.respelled {f' : String} (h : LaidOut src f ps)
    (hr : Result.Agree (src.readText f) (src.readText f'))
    (hseen : ∀ text, src.readText f = .ok text → ∀ l ∈ Text.lines text, ∀ target,
      target? l = some target →
      Result.Agree (Path.resolveInclude f target) (Path.resolveInclude f' target))
    (hout : ∀ p, Relation.TransGen (Leads src) f p → p ≠ f ∧ p ≠ f') :
    ∃ qs, LaidOut src f' qs ∧ shown qs = shown ps := by
  have hnamed := fun p hp => hout p ((h.mem_named_iff p).1 hp)
  obtain ⟨⟨text, ht, hl⟩, hfirst⟩ := h
  obtain ⟨qs, hl', hshown, hn, hfirst'⟩ := hl.respelled fun l hmem target path htarget hp =>
    (hseen text ht l.1 (mem_lines_of_mem_numbered hmem) target htarget path).1 hp
  refine ⟨qs, ⟨⟨text, (hr text).1 ht, hl'⟩, ?_⟩, hshown⟩
  refine (FirstOnly.congr fun p hp => ?_).1 (hfirst' [f] hfirst)
  obtain ⟨hf, hf'⟩ := hnamed p (hn ▸ hp)
  simp [hf, hf']

/-! ### Counting lines -/

/-- The lines of a layout: the other lines of each file, and a mark behind each that is put in. -/
theorem Lays.length_shown (h : Lays src f ls ps) : (shown ps).length =
    (others ls).length + ((entered ps).map fun p => (ownLines src p).length + 1).sum := by
  induction h with
  | nil => rfl
  | @line file l n ls ps ht _ ih =>
      have hshown : shown (.line file n l :: ps) = l :: shown ps := rfl
      have hentered : entered (.line file n l :: ps) = entered ps := rfl
      rw [hshown, hentered, others_cons_line ht, List.length_cons, List.length_cons, ih]
      omega
  | @skip file l target path n ls ps ht _ _ ih =>
      rw [others_cons_naming ht]
      exact ih
  | @put file l target path text n ls inner ps ht _ hr _ _ ih₁ ih₂ =>
      rw [shown_put, entered_put, others_cons_naming ht, List.length_append, List.length_cons, ih₁,
        ih₂, List.map_cons, List.map_append, List.sum_cons, List.sum_append, ownLines_of_read hr]
      omega

theorem LaidOut.length_shown (h : LaidOut src f ps) : (shown ps).length =
    (ownLines src f).length + ((entered ps).map fun p => (ownLines src p).length + 1).sum := by
  obtain ⟨⟨text, ht, hl⟩, -⟩ := h
  rw [hl.length_shown, ownLines_of_read ht]

/-- A root that include lines come back to is put in under its canonical path, and that is all that
a spelling of it adds. -/
theorem entered_perm (hn : Path.normalize f = .ok q) (hne : f ≠ q)
    (hr : Result.Agree (src.readText f) (src.readText q)) (hseen : SeenAlike src f q)
    (hback : Relation.TransGen (Leads src) q q) (h : LaidOut src f ps) (h' : LaidOut src q qs) :
    (entered ps).Perm (q :: entered qs) := by
  have hq : q ∉ entered qs := fun hin => ((h'.mem_entered_iff q).1 hin).1 rfl
  refine (List.perm_ext_iff_of_nodup h.first.nodup_entered.1
    (List.nodup_cons.2 ⟨hq, h'.first.nodup_entered.1⟩)).2 fun p => ?_
  rw [List.mem_cons, h.mem_entered_iff, h'.mem_entered_iff, h.mem_named_iff, h'.mem_named_iff,
    hseen.transGen_iff hr]
  constructor
  · rintro ⟨-, hp⟩
    exact or_iff_not_imp_left.2 fun hne => ⟨hne, hp⟩
  · rintro (rfl | ⟨-, hp⟩)
    · exact ⟨ne_of_transGen hn hne hback, hback⟩
    · exact ⟨ne_of_transGen hn hne hp, hp⟩

end Include

/-! ### Processed texts -/

namespace Shader

open Include

variable {src : Source} {f q : String} {isDefined : String → Bool} {ls out : List String}

/-- The lines of a file are those that are laid out. -/
theorem assemble_eq_ok_iff_laidOut (hb : src.Bounded) : assemble src f = .ok ls ↔
    ∃ ps, LaidOut src f ps ∧ Text.lines (Text.unlines (shown ps)) = ls := by
  unfold assemble resolve
  simp only [Result.bind_eq_ok, Result.mapError_eq_ok]
  constructor
  · rintro ⟨out, ⟨text, ht, lines, hlines, hout⟩, h⟩
    obtain ⟨ps, hps, rfl⟩ := (expand_eq_ok hb ht).1 hlines
    obtain rfl := Except.ok.inj hout
    exact ⟨ps, hps, Except.ok.inj h⟩
  · rintro ⟨ps, hps, rfl⟩
    obtain ⟨text, ht, -⟩ := hps.lays
    exact ⟨_, ⟨text, ht, shown ps, (expand_eq_ok hb ht).2 ⟨ps, hps, rfl⟩, rfl⟩, rfl⟩

/-- A processed text has as many lines as are laid out. -/
theorem length_of_processed (hb : src.Bounded) (h : processed isDefined src f = .ok out) :
    ∃ ps, LaidOut src f ps ∧ out.length = (shown ps).length := by
  obtain ⟨ls, hls, hout⟩ := Result.bind_eq_ok.1 h
  obtain ⟨ps, hps, rfl⟩ := (assemble_eq_ok_iff_laidOut hb).1 hls
  exact ⟨ps, hps, by rw [Conditional.length_selectFrom hout, hps.lines_shown, List.length_map]⟩

/-- A root that no include line leads back to is assembled alike under its canonical path. -/
theorem assemble_agree (hb : src.Bounded) (hs : src.ReadsCanonically)
    (hn : Path.normalize f = .ok q) (hseen : SeenAlike src f q)
    (hback : ¬ Relation.TransGen (Leads src) q q) :
    Result.Agree (assemble src f) (assemble src q) := by
  by_cases hne : f = q
  · rw [hne]
    exact .refl _
  · have hr := hs.readText hn
    have hout : ∀ p, Relation.TransGen (Leads src) q p → p ≠ f ∧ p ≠ q := fun p hp =>
      ⟨ne_of_transGen hn hne hp, fun e => hback (e ▸ hp)⟩
    intro ls
    rw [assemble_eq_ok_iff_laidOut hb, assemble_eq_ok_iff_laidOut hb]
    constructor
    · rintro ⟨ps, hps, rfl⟩
      obtain ⟨qs, hqs, hshown⟩ := hps.respelled hr
        (fun text ht => hseen text ((hr text).1 ht))
        fun p hp => hout p ((hseen.transGen_iff hr p).1 hp)
      exact ⟨qs, hqs, by rw [hshown]⟩
    · rintro ⟨qs, hqs, rfl⟩
      obtain ⟨ps, hps, hshown⟩ := hqs.respelled hr.symm
        (fun text ht l hl target htarget => (hseen text ht l hl target htarget).symm)
        fun p hp => (hout p hp).symm
      exact ⟨ps, hps, by rw [hshown]⟩

/-- A root that include lines lead back to has a longer text under another spelling. -/
theorem not_processed_of_back (hb : src.Bounded) (hs : src.ReadsCanonically)
    (hn : Path.normalize f = .ok q) (hne : f ≠ q) (hseen : SeenAlike src f q)
    (hback : Relation.TransGen (Leads src) q q) (h : processed isDefined src f = .ok out) :
    processed isDefined src q ≠ .ok out := by
  intro h'
  have hr := hs.readText hn
  obtain ⟨ps, hps, hlength⟩ := length_of_processed hb h
  obtain ⟨qs, hqs, hlength'⟩ := length_of_processed hb h'
  have hsum := ((entered_perm hn hne hr hseen hback hps hqs).map
    fun p => (ownLines src p).length + 1).sum_nat
  have hown : ownLines src f = ownLines src q := by
    obtain ⟨text, ht, -⟩ := hps.lays
    rw [ownLines_of_read ht, ownLines_of_read ((hr text).1 ht)]
  have hp := hps.length_shown
  have hq := hqs.length_shown
  rw [List.map_cons, List.sum_cons] at hsum
  rw [hown] at hp
  omega

/-- **The text of a shader under a spelling of its path.**  A spelling and the canonical path see
all include lines alike exactly when the directory of the one is a spelling of the directory of the
other.  If those of the shader are seen alike, the text is the same under both exactly when the
spelling is canonical or no include line leads back to the shader, or there is no text under
either. -/
theorem processed_agree_iff (hb : src.Bounded) (hs : src.ReadsCanonically)
    (hn : Path.normalize f = .ok q) :
    ((∀ target, Result.Agree (Path.resolveInclude f target) (Path.resolveInclude q target)) ↔
      Path.SameDirectory (Path.parent f) (Path.parent q)) ∧
    (SeenAlike src f q → ∀ isDefined,
      (Result.Agree (processed isDefined src f) (processed isDefined src q) ↔
        f = q ∨ ¬ Relation.TransGen (Leads src) q q ∨
          (∀ out, processed isDefined src f ≠ .ok out) ∧
            ∀ out, processed isDefined src q ≠ .ok out)) := by
  refine ⟨?_, fun hseen isDefined => ⟨fun h => ?_, ?_⟩⟩
  · have hq := Path.survivors_parent (Path.normalize_idempotent hn)
    exact Path.join_agree_iff_sameDirectory hq.1
  · by_cases hne : f = q
    · exact .inl hne
    · by_cases hback : Relation.TransGen (Leads src) q q
      · have hfails : ∀ out, processed isDefined src f ≠ .ok out := fun out hout =>
          not_processed_of_back hb hs hn hne hseen hback hout ((h out).1 hout)
        exact .inr (.inr ⟨hfails, fun out hout => hfails out ((h out).2 hout)⟩)
      · exact .inr (.inl hback)
  · rintro (rfl | hback | ⟨hf, hq⟩)
    · exact .refl _
    · exact (assemble_agree hb hs hn hseen hback).bind _
    · exact Result.agree_of_fails hf hq

/-! ### A shader that names itself -/

namespace Mirror

/-- The line of a file with an entry point. -/
def entryLine : String := "@fragment fn ps() \x7b\x7d"

/-- The lines of a shader that names itself where lines do not count, and then that file. -/
def litLines : List String :=
  ["#ifdef OFF", "#include \"lit.wgsl\"", "#else", "#include \"common.wgsl\"", "#endif"]

def memory : MemorySource :=
  (({} : MemorySource).insertText "common.wgsl" (Text.unlines [entryLine])).insertText
    "lit.wgsl" (Text.unlines litLines)

def defined : String → Bool := (Define.environment .pixel []).has

theorem readTexts : memory.toSource.readText "common.wgsl" = .ok (Text.unlines [entryLine]) ∧
    memory.toSource.readText "lit.wgsl" = .ok (Text.unlines litLines) := by decide +kernel

/-- The entry point is there under the canonical path; under another spelling the lines that do not
count have it. -/
theorem processed_lit :
    processed defined memory.toSource "lit.wgsl" = .ok ["", "", entryLine, "", ""] ∧
    processed defined memory.toSource "./lit.wgsl" = .ok (List.replicate 9 "") := by decide +kernel

/-- An entry point is lost when the shader is asked for under another spelling. -/
theorem root_spelling_matters : ¬ ∀ (src : Source) (f q : String) (isDefined : String → Bool),
    src.Bounded → src.ReadsCanonically → Path.normalize f = .ok q →
    Result.Agree (processed isDefined src f) (processed isDefined src q) := by
  intro h
  obtain ⟨hlit, hspelled⟩ := processed_lit
  have hagree := h memory.toSource "./lit.wgsl" "lit.wgsl" defined memory.bounded
    memory.readsCanonically rfl
  have hsame := congrArg List.length (Except.ok.inj (hspelled.symm.trans ((hagree _).2 hlit)))
  exact absurd hsame (by decide)

theorem not_leads_common {path : String} : ¬ Leads memory.toSource "common.wgsl" path := by
  rintro ⟨text, l, target, ht, hl, htarget, -⟩
  obtain rfl := Except.ok.inj (readTexts.1.symm.trans ht)
  have hlines : Text.lines (Text.unlines [entryLine]) = [entryLine] := rfl
  rw [hlines, List.mem_singleton] at hl
  subst hl
  exact nomatch (rfl : target? entryLine = none).symm.trans htarget

theorem leads_lit : Leads memory.toSource "lit.wgsl" "lit.wgsl" := by
  have hmem : "#include \"lit.wgsl\"" ∈ Text.lines (Text.unlines litLines) := by decide
  exact ⟨_, _, "lit.wgsl", readTexts.2, hmem, rfl, rfl⟩

/-- The other file has one text under both spellings, and the shader has two. -/
theorem processed_spelled :
    Result.Agree (processed defined memory.toSource "./common.wgsl")
      (processed defined memory.toSource "common.wgsl") ∧
    ¬ Result.Agree (processed defined memory.toSource "./lit.wgsl")
      (processed defined memory.toSource "lit.wgsl") := by
  have hcommon := processed_agree_iff (f := "./common.wgsl") (q := "common.wgsl") memory.bounded
    memory.readsCanonically rfl
  have hlit := processed_agree_iff (f := "./lit.wgsl") (q := "lit.wgsl") memory.bounded
    memory.readsCanonically rfl
  have hseen := hcommon.1.2 ⟨by decide, by decide, rfl⟩
  have hseen' := hlit.1.2 ⟨by decide, by decide, rfl⟩
  refine ⟨(hcommon.2 (fun _ _ _ _ target _ => hseen target) defined).2 (.inr (.inl fun h => ?_)),
    fun h => ?_⟩
  · obtain ⟨_, hstep, -⟩ := Relation.TransGen.head'_iff.1 h
    exact not_leads_common hstep
  · have hcases := (hlit.2 (fun _ _ _ _ target _ => hseen' target) defined).1 h
    rcases hcases with he | hback | ⟨-, hfails⟩
    · exact absurd he (by decide)
    · exact hback (.single leads_lit)
    · exact hfails _ processed_lit.1

end Mirror

end Shader

end RenderMaterials
