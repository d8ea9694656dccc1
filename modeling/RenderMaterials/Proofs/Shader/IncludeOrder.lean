import RenderMaterials.Proofs.Shader.SinglePass
import Mathlib.Logic.Relation

/-!
# Shader includes — where each line comes from

A text with its includes put in consists of pieces: lines of files, include lines, and the marks
behind files that were put in.  A walk that comes to an include line goes through the file that it
names, if it meets that file for the first time, and goes on behind the line.

* `Lays`: the pieces of some lines of a file, whichever of the include lines put their files in.
* `FirstOnly`: a file is put in by the first include line that names it.
* `lays_of_expands`: an assembly adds the pieces that are laid out so.  `Lays.unique`: there are no
  others.
* `Lays.linesOf_eq`: each file that is put in gives each of its other lines once, in their order.
* `LaidOut.mem_named_iff`, `LaidOut.reaches_iff`: the files that include lines lead to are named
  and, but for the root, put in.
-/

namespace RenderMaterials.Include

/-! ### Pieces -/

/-- A piece of a text with its includes put in, and where it comes from. -/
inductive Piece where
  /-- A line of a file that names no file. -/
  | line (file : String) (number : Nat) (text : String)
  /-- An include line of a file, with the file that it names and whether that is put in here. -/
  | naming (file : String) (number : Nat) (path : String) (put : Bool)
  /-- The end of a file that was put in. -/
  | mark (path : String)
  deriving DecidableEq, Repr

namespace Piece

/-- The line that a piece adds to the text. -/
def shown? : Piece → Option String
  | line _ _ text => some text
  | naming ..     => none
  | mark _        => some ""

/-- The file that a piece names. -/
def named? : Piece → Option String
  | naming _ _ path _ => some path
  | _                 => none

/-- The file that is put in at a piece. -/
def entered? : Piece → Option String
  | naming _ _ path true => some path
  | _                    => none

/-- The line of a file that a piece is, with its number. -/
def lineOf? (file : String) : Piece → Option (String × Nat)
  | line f number text => if f = file then some (text, number) else none
  | _                  => none

end Piece

variable {src : Source} {file path path' root text l target target' : String} {n : Nat}
  {known : List String} {ls : List (String × Nat)} {ps qs : List Piece}

/-- The lines of a text that consists of some pieces. -/
def shown (ps : List Piece) : List String := ps.filterMap Piece.shown?

/-- The files that are named, once for each include line. -/
def named (ps : List Piece) : List String := ps.filterMap Piece.named?

/-- The files that are put in. -/
def entered (ps : List Piece) : List String := ps.filterMap Piece.entered?

/-- The lines of a file among some pieces, with their numbers. -/
def linesOf (file : String) (ps : List Piece) : List (String × Nat) :=
  ps.filterMap (Piece.lineOf? file)

theorem entered_subset_named (ps : List Piece) : entered ps ⊆ named ps := by
  intro p hp
  obtain ⟨piece, hmem, h⟩ := List.mem_filterMap.1 hp
  refine List.mem_filterMap.2 ⟨piece, hmem, ?_⟩
  cases piece with
  | naming file number path put =>
      cases put with
      | true => exact h
      | false => cases h
  | line => cases h
  | mark => cases h

/-- The lines of a text with their numbers. -/
def numbered (text : String) : List (String × Nat) := (Text.lines text).zipIdx

/-- The lines that name no file. -/
def others (ls : List (String × Nat)) : List (String × Nat) := ls.filter fun l => target? l.1 = none

/-- The lines of a file that name no other file. -/
def ownLines (src : Source) (file : String) : List (String × Nat) :=
  match src.readText file with
  | .ok text => others (numbered text)
  | .error _ => []

theorem numbered_fst (text : String) : (numbered text).map Prod.fst = Text.lines text :=
  List.zipIdx_map_fst 0 _

/-- A line with a number is a line of the text. -/
theorem mem_lines_of_mem_numbered {l : String × Nat} (h : l ∈ numbered text) :
    l.1 ∈ Text.lines text :=
  numbered_fst text ▸ List.mem_map_of_mem h

theorem others_cons_line (h : target? l = none) : others ((l, n) :: ls) = (l, n) :: others ls := by
  simp [others, h]

theorem others_cons_naming (h : target? l = some target) : others ((l, n) :: ls) = others ls := by
  simp [others, h]

theorem ownLines_of_read (h : src.readText file = .ok text) :
    ownLines src file = others (numbered text) := by
  rw [ownLines, h]

/-! ### Laying files out -/

/-- The pieces of some numbered lines of a file.  A line that names no file stands for itself; the
file that an include line names may be put in behind it, or not. -/
inductive Lays (src : Source) : String → List (String × Nat) → List Piece → Prop
  | nil {file : String} : Lays src file [] []
  | line {file l : String} {n : Nat} {ls : List (String × Nat)} {ps : List Piece} :
      target? l = none → Lays src file ls ps → Lays src file ((l, n) :: ls) (.line file n l :: ps)
  | skip {file l target path : String} {n : Nat} {ls : List (String × Nat)} {ps : List Piece} :
      target? l = some target → Path.resolveInclude file target = .ok path →
      Lays src file ls ps → Lays src file ((l, n) :: ls) (.naming file n path false :: ps)
  | put {file l target path text : String} {n : Nat} {ls : List (String × Nat)}
      {inner ps : List Piece} :
      target? l = some target → Path.resolveInclude file target = .ok path →
      src.readText path = .ok text → Lays src path (numbered text) inner → Lays src file ls ps →
      Lays src file ((l, n) :: ls) (.naming file n path true :: (inner ++ .mark path :: ps))

/-- A file is put in by the first include line that names it, unless it was known before, and by no
other line. -/
def FirstOnly : (known : List String) → List Piece → Prop
  | _,     []               => True
  | known, .line ..   :: ps => FirstOnly known ps
  | known, .naming _ _ path put :: ps =>
    (put = true ↔ path ∉ known) ∧ FirstOnly (known ++ [path]) ps
  | known, .mark _    :: ps => FirstOnly known ps

/-- An include line names one file. -/
theorem path_unique (ht : target? l = some target) (hp : Path.resolveInclude file target = .ok path)
    (ht' : target? l = some target') (hp' : Path.resolveInclude file target' = .ok path') :
    path = path' := by
  obtain rfl := Option.some.inj (ht.symm.trans ht')
  exact Except.ok.inj (hp.symm.trans hp')

/-- The pieces of a text whose root is known from the start. -/
structure LaidOut (src : Source) (root : String) (ps : List Piece) : Prop where
  lays  : ∃ text, src.readText root = .ok text ∧ Lays src root (numbered text) ps
  first : FirstOnly [root] ps

/-! ### A file that is put in -/

section Put

variable (file f : String) (n : Nat) (path : String) (inner ps : List Piece)

theorem shown_put : shown (.naming file n path true :: (inner ++ .mark path :: ps)) =
    shown inner ++ "" :: shown ps :=
  @List.filterMap_append _ _ inner (.mark path :: ps) _

theorem named_put : named (.naming file n path true :: (inner ++ .mark path :: ps)) =
    path :: (named inner ++ named ps) :=
  congrArg (path :: ·) List.filterMap_append

theorem entered_put : entered (.naming file n path true :: (inner ++ .mark path :: ps)) =
    path :: (entered inner ++ entered ps) :=
  congrArg (path :: ·) List.filterMap_append

theorem linesOf_line (l : String) : linesOf f (.line file n l :: ps) =
    (if f = file then [(l, n)] else []) ++ linesOf f ps := by
  by_cases h : f = file
  · simp [linesOf, Piece.lineOf?, h]
  · simp [linesOf, Piece.lineOf?, h, Ne.symm h]

theorem linesOf_put : linesOf f (.naming file n path true :: (inner ++ .mark path :: ps)) =
    linesOf f inner ++ linesOf f ps :=
  @List.filterMap_append _ _ inner (.mark path :: ps) _

end Put

/-! ### First include lines -/

namespace FirstOnly

/-- Only what is known of the files that are named counts. -/
theorem congr {known' : List String} (h : ∀ p ∈ named ps, p ∈ known ↔ p ∈ known') :
    FirstOnly known ps ↔ FirstOnly known' ps := by
  induction ps generalizing known known' with
  | nil => exact Iff.rfl
  | cons piece ps ih =>
      cases piece with
      | line => exact ih h
      | mark => exact ih h
      | naming file n path put =>
          have hpath := h path (by simp [named, Piece.named?])
          refine and_congr (by rw [hpath]) (ih fun p hp => ?_)
          have hp' := h p (List.mem_cons_of_mem path hp)
          rw [List.mem_append, List.mem_append, hp']

theorem append_iff :
    FirstOnly known (ps ++ qs) ↔ FirstOnly known ps ∧ FirstOnly (known ++ named ps) qs := by
  induction ps generalizing known with
  | nil => simp [FirstOnly, named]
  | cons piece ps ih =>
      cases piece with
      | line => exact ih
      | mark => exact ih
      | naming file n path put =>
          have hnamed : known ++ named (.naming file n path put :: ps) =
              known ++ [path] ++ named ps := by
            rw [List.append_assoc]
            rfl
          rw [List.cons_append, FirstOnly, FirstOnly, ih, hnamed, and_assoc]

/-- What is named is known or put in. -/
theorem known_or_named_iff (h : FirstOnly known ps) (p : String) :
    p ∈ known ++ named ps ↔ p ∈ known ++ entered ps := by
  induction ps generalizing known with
  | nil => exact Iff.rfl
  | cons piece ps ih =>
      cases piece with
      | line => exact ih h
      | mark => exact ih h
      | naming file n path put =>
          have ih' := ih h.2
          cases put with
          | true => simpa [named, entered, Piece.named?, Piece.entered?] using ih'
          | false =>
              -- the file that is not put in was known
              have hin : path ∈ known := by
                by_contra hnot
                exact absurd (h.1.2 hnot) (by simp)
              have hpath : p = path → p ∈ known := fun e => e ▸ hin
              simp only [named, entered, List.filterMap_cons, Piece.named?, Piece.entered?,
                List.mem_append, List.mem_cons, List.not_mem_nil, or_false] at ih' ⊢
              tauto

/-- No file is put in that was known, and none twice. -/
theorem nodup_entered (h : FirstOnly known ps) :
    (entered ps).Nodup ∧ ∀ p ∈ entered ps, p ∉ known := by
  induction ps generalizing known with
  | nil => exact ⟨List.nodup_nil, fun p hp => absurd hp (by simp [entered])⟩
  | cons piece ps ih =>
      cases piece with
      | line => exact ih h
      | mark => exact ih h
      | naming file n path put =>
          obtain ⟨hnodup, hnew⟩ := ih h.2
          have hnew' : ∀ p ∈ entered ps, p ∉ known := fun p hp hk =>
            hnew p hp (List.mem_append_left _ hk)
          cases put with
          | false => exact ⟨hnodup, hnew'⟩
          | true =>
              have hpath : path ∉ entered ps := fun hp => hnew path hp (by simp)
              refine ⟨List.nodup_cons.2 ⟨hpath, hnodup⟩, fun p hp => ?_⟩
              rcases List.mem_cons.1 hp with rfl | hp
              · exact h.1.1 rfl
              · exact hnew' p hp

/-- The pieces of a file that is put in, and those behind it. -/
theorem put_iff {n : Nat} {inner : List Piece} :
    FirstOnly known (.naming file n path true :: (inner ++ .mark path :: ps)) ↔
      path ∉ known ∧ FirstOnly (known ++ [path]) inner ∧
        FirstOnly (known ++ [path] ++ named inner) ps := by
  rw [FirstOnly, append_iff, FirstOnly]
  simp only [true_iff]

end FirstOnly

namespace Lays

/-- Only one choice of the lines that put files in is the first for each. -/
theorem unique (h : Lays src file ls ps) (h' : Lays src file ls qs) (hf : FirstOnly known ps)
    (hf' : FirstOnly known qs) : ps = qs := by
  induction h generalizing qs known with
  | nil =>
      cases h'
      rfl
  | line ht _ ih =>
      cases h' with
      | line _ h' => rw [ih h' hf hf']
      | skip ht' => cases ht.symm.trans ht'
      | put ht' => cases ht.symm.trans ht'
  | skip ht hp _ ih =>
      cases h' with
      | line ht' => cases ht.symm.trans ht'
      | skip ht' hp' h' =>
          obtain rfl := path_unique ht hp ht' hp'
          rw [ih h' hf.2 hf'.2]
      | put ht' hp' =>
          obtain rfl := path_unique ht hp ht' hp'
          exact absurd (hf.1.2 (hf'.1.1 rfl)) (by simp)
  | put ht hp hr _ _ ih₁ ih₂ =>
      cases h' with
      | line ht' => cases ht.symm.trans ht'
      | skip ht' hp' =>
          obtain rfl := path_unique ht hp ht' hp'
          exact absurd (hf'.1.2 (hf.1.1 rfl)) (by simp)
      | put ht' hp' hr' h₁ h₂ =>
          obtain rfl := path_unique ht hp ht' hp'
          obtain rfl := Except.ok.inj (hr.symm.trans hr')
          obtain ⟨-, hi, hs⟩ := FirstOnly.put_iff.1 hf
          obtain ⟨-, hi', hs'⟩ := FirstOnly.put_iff.1 hf'
          obtain rfl := ih₁ h₁ hi hi'
          rw [ih₂ h₂ hs hs']

end Lays

/-- What an assembly adds is laid out so that the first include lines put their files in. -/
theorem lays_of_expands {a a' : Assembly} {lines : List String}
    (h : Expands src file lines a a') (hls : ls.map Prod.fst = lines) :
    ∃ ps, Lays src file ls ps ∧ FirstOnly a.files ps ∧ a'.lines = a.lines ++ shown ps ∧
      a'.files = a.files ++ entered ps := by
  induction h generalizing ls with
  | nil =>
      obtain rfl := List.map_eq_nil_iff.1 hls
      exact ⟨[], .nil, trivial, by simp [shown], by simp [entered]⟩
  | @text file l lines a a' ht _ ih =>
      obtain ⟨⟨_, n⟩, ls, rfl, rfl, htail⟩ := List.map_eq_cons_iff.1 hls
      obtain ⟨ps, hl, hf, hlines, hfiles⟩ := ih htail
      refine ⟨_, .line ht hl, hf, ?_, hfiles⟩
      rw [hlines, Assembly.push, List.append_assoc]
      rfl
  | @known file l target path lines a a' ht hp hin _ ih =>
      obtain ⟨⟨_, n⟩, ls, rfl, rfl, htail⟩ := List.map_eq_cons_iff.1 hls
      obtain ⟨ps, hl, hf, hlines, hfiles⟩ := ih htail
      refine ⟨_, .skip ht hp hl, ⟨by simp [hin], (FirstOnly.congr fun p _ => ?_).1 hf⟩, hlines,
        hfiles⟩
      rw [List.mem_append, List.mem_singleton]
      exact ⟨.inl, fun h => h.elim id fun e => e ▸ hin⟩
  | @put file l target path text lines a a₁ a' ht hp hnew hr _ _ ih₁ ih₂ =>
      obtain ⟨⟨_, n⟩, ls, rfl, rfl, htail⟩ := List.map_eq_cons_iff.1 hls
      obtain ⟨inner, hl₁, hf₁, hlines₁, hfiles₁⟩ := ih₁ (numbered_fst text)
      obtain ⟨ps, hl₂, hf₂, hlines₂, hfiles₂⟩ := ih₂ htail
      have hfiles : a₁.files = a.files ++ [path] ++ entered inner := hfiles₁
      refine ⟨_, .put ht hp hr hl₁ hl₂, FirstOnly.put_iff.2 ⟨hnew, hf₁, ?_⟩, ?_, ?_⟩
      · -- behind the file those are known that are named in it
        refine (FirstOnly.congr fun p _ => ?_).1 hf₂
        rw [Assembly.push, hfiles]
        exact (hf₁.known_or_named_iff p).symm
      · rw [hlines₂, Assembly.push, hlines₁, shown_put]
        simp [Assembly.enter]
      · rw [hfiles₂, Assembly.push, hfiles, entered_put]
        simp

/-! ### The lines of each file -/

namespace Lays

/-- The file itself gives its other lines in their order, each file that is put in all of its other
lines, and no other file gives any. -/
theorem linesOf_eq (h : Lays src file ls ps) (hf : FirstOnly known ps) (hfile : file ∈ known)
    (f : String) : linesOf f ps =
      if f = file then others ls else if f ∈ entered ps then ownLines src f else [] := by
  induction h generalizing known with
  | nil => simp [linesOf, others, entered]
  | @line file l n ls ps ht _ ih =>
      have ih' := ih hf hfile
      have hentered : entered (.line file n l :: ps) = entered ps := rfl
      rw [linesOf_line, ih', hentered, others_cons_line ht]
      by_cases he : f = file
      · simp [he]
      · simp [he]
  | @skip file l target path n ls ps ht _ _ ih =>
      have ih' := ih hf.2 (List.mem_append_left _ hfile)
      rw [others_cons_naming ht]
      exact ih'
  | @put file l target path text n ls inner ps ht _ hr _ _ ih₁ ih₂ =>
      obtain ⟨hnew, hf₁, hf₂⟩ := FirstOnly.put_iff.1 hf
      have ih₁' := ih₁ hf₁ (by simp)
      have ih₂' := ih₂ hf₂ (by simp [hfile])
      -- what is put in before is not put in again
      have hapart : ∀ p ∈ entered ps, p ≠ path ∧ p ∉ entered inner := fun p hp => by
        have hp' := hf₂.nodup_entered.2 p hp
        refine ⟨fun e => hp' (by simp [e]), fun hi => hp' ?_⟩
        exact List.mem_append_right _ (entered_subset_named inner hi)
      rw [linesOf_put, entered_put, others_cons_naming ht, ih₁', ih₂']
      by_cases he : f = file
      · have hne : f ≠ path := fun e => hnew (e ▸ he ▸ hfile)
        have hout : f ∉ entered inner := fun hi => hf₁.nodup_entered.2 f hi (by simp [he, hfile])
        simp [he, he ▸ hne, he ▸ hout]
      · by_cases hpath : f = path
        · subst hpath
          have hout : f ∉ entered ps := fun hp => (hapart f hp).1 rfl
          simp [he, hout, ownLines_of_read hr]
        · by_cases hi : f ∈ entered inner
          · have hout : f ∉ entered ps := fun hp => (hapart f hp).2 hi
            simp [he, hpath, hi, hout]
          · simp [he, hpath, hi]

/-- Whole lines are shown, and none that names a file. -/
theorem of_mem_shown (h : Lays src file ls ps) (hls : ∀ l ∈ ls, Text.Whole l.1) :
    ∀ l ∈ shown ps, Text.Whole l ∧ target? l = none := by
  induction h with
  | nil => exact fun l hl => absurd hl (by simp [shown])
  | line ht _ ih =>
      intro l hl
      rcases List.mem_cons.1 hl with rfl | hl
      · exact ⟨hls _ List.mem_cons_self, ht⟩
      · exact ih (fun l hl => hls l (List.mem_cons_of_mem _ hl)) l hl
  | skip _ _ _ ih => exact ih fun l hl => hls l (List.mem_cons_of_mem _ hl)
  | @put file l target path text n ls inner ps _ _ _ _ _ ih₁ ih₂ =>
      intro l' hl'
      rw [shown_put, List.mem_append, List.mem_cons] at hl'
      rcases hl' with hl' | rfl | hl'
      · refine ih₁ (fun l hl => ?_) l' hl'
        exact Text.whole_of_mem_lines (mem_lines_of_mem_numbered hl)
      · exact ⟨fun c hc => absurd hc (by simp), rfl⟩
      · exact ih₂ (fun l hl => hls l (List.mem_cons_of_mem _ hl)) l' hl'

end Lays

/-! ### Following include lines -/

/-- A file leads to another: one of its include lines names it. -/
def Leads (src : Source) (file path : String) : Prop :=
  ∃ text l target, src.readText file = .ok text ∧ l ∈ Text.lines text ∧ target? l = some target ∧
    Path.resolveInclude file target = .ok path

/-- What an include line names has a canonical path. -/
theorem Leads.canonical (h : Leads src file path) : Path.normalize path = .ok path := by
  obtain ⟨_, _, _, _, _, _, hp⟩ := h
  exact Path.normalize_resolveInclude hp

/-- A file is reached from another through include lines. -/
def Reaches (src : Source) : String → String → Prop := Relation.ReflTransGen (Leads src)

/-- Each include line among some lines of a file names one of the given files. -/
def NamesIn (file : String) (lines paths : List String) : Prop :=
  ∀ l ∈ lines, ∀ target, target? l = some target →
    ∃ path ∈ paths, Path.resolveInclude file target = .ok path

theorem NamesIn.mono {lines paths paths' : List String} (h : NamesIn file lines paths)
    (hsub : paths ⊆ paths') : NamesIn file lines paths' := fun l hl target ht => by
  obtain ⟨path, hin, hp⟩ := h l hl target ht
  exact ⟨path, hsub hin, hp⟩

theorem NamesIn.cons {l target : String} {lines paths : List String}
    (h : NamesIn file lines paths) (ht : target? l = some target)
    (hp : Path.resolveInclude file target = .ok path) :
    NamesIn file (l :: lines) (path :: paths) := by
  intro l' hl' target' ht'
  rcases List.mem_cons.1 hl' with rfl | hl'
  · obtain rfl := Option.some.inj (ht.symm.trans ht')
    exact ⟨path, List.mem_cons_self, hp⟩
  · exact h.mono (List.subset_cons_self path paths) l' hl' target' ht'

namespace Lays

/-- What the include lines of the file name is named, and so is what those of a file name that is
put in. -/
theorem namesIn (h : Lays src file ls ps) :
    NamesIn file (ls.map Prod.fst) (named ps) ∧
      ∀ p ∈ entered ps, ∃ text, src.readText p = .ok text ∧
        NamesIn p (Text.lines text) (named ps) := by
  induction h with
  | nil => exact ⟨fun l hl => absurd hl (by simp), fun p hp => absurd hp (by simp [entered])⟩
  | @line file l n ls ps ht _ ih =>
      refine ⟨fun l' hl' target ht' => ?_, ih.2⟩
      rcases List.mem_cons.1 hl' with rfl | hl'
      · cases ht.symm.trans ht'
      · exact ih.1 l' hl' target ht'
  | @skip file l target path n ls ps ht hp _ ih =>
      refine ⟨ih.1.cons ht hp, fun p hp => ?_⟩
      obtain ⟨text, hr, hn⟩ := ih.2 p hp
      exact ⟨text, hr, hn.mono (List.subset_cons_self path _)⟩
  | @put file l target path text n ls inner ps ht hp hr _ _ ih₁ ih₂ =>
      have hinner : named inner ⊆ path :: (named inner ++ named ps) := fun p hp => by simp [hp]
      have hrest : named ps ⊆ named inner ++ named ps := List.subset_append_right _ _
      rw [named_put, entered_put]
      refine ⟨(ih₂.1.mono hrest).cons ht hp, fun p hp => ?_⟩
      rcases List.mem_cons.1 hp with rfl | hp
      · exact ⟨text, hr, (numbered_fst text ▸ ih₁.1).mono hinner⟩
      · rcases List.mem_append.1 hp with hp | hp
        · obtain ⟨text', hr', hn⟩ := ih₁.2 p hp
          exact ⟨text', hr', hn.mono hinner⟩
        · obtain ⟨text', hr', hn⟩ := ih₂.2 p hp
          exact ⟨text', hr', hn.mono (List.Subset.trans hrest (List.subset_cons_self path _))⟩

/-- What is named is reached. -/
theorem transGen_of_mem_named (h : Lays src file ls ps) (hr : src.readText file = .ok text)
    (hls : ls.map Prod.fst ⊆ Text.lines text) :
    ∀ p ∈ named ps, Relation.TransGen (Leads src) file p := by
  induction h generalizing text with
  | nil => exact fun p hp => absurd hp (by simp [named])
  | line _ _ ih => exact ih hr (List.cons_subset.1 hls).2
  | @skip file l target path n ls ps ht hp _ ih =>
      obtain ⟨hl, hls⟩ := List.cons_subset.1 hls
      intro p hmem
      rcases List.mem_cons.1 hmem with rfl | hmem
      · exact .single ⟨text, l, target, hr, hl, ht, hp⟩
      · exact ih hr hls p hmem
  | @put file l target path text' n ls inner ps ht hp hr' _ _ ih₁ ih₂ =>
      obtain ⟨hl, hls⟩ := List.cons_subset.1 hls
      have hleads : Leads src file path := ⟨text, l, target, hr, hl, ht, hp⟩
      rw [named_put]
      intro p hmem
      rcases List.mem_cons.1 hmem with rfl | hmem
      · exact .single hleads
      · rcases List.mem_append.1 hmem with hmem | hmem
        · exact .head hleads (ih₁ hr' (numbered_fst text' ▸ List.Subset.refl _) p hmem)
        · exact ih₂ hr hls p hmem

end Lays

/-! ### Whole texts -/

namespace LaidOut

/-- There is one layout of a text. -/
theorem unique (h : LaidOut src root ps) (h' : LaidOut src root qs) : ps = qs := by
  obtain ⟨⟨text, ht, hl⟩, hf⟩ := h
  obtain ⟨⟨text', ht', hl'⟩, hf'⟩ := h'
  obtain rfl := Except.ok.inj (ht.symm.trans ht')
  exact hl.unique hl' hf hf'

theorem mem_entered_iff (h : LaidOut src root ps) (p : String) :
    p ∈ entered ps ↔ p ≠ root ∧ p ∈ named ps := by
  have hiff := h.first.known_or_named_iff p
  have hnew := h.first.nodup_entered.2 p
  simp only [List.mem_append, List.mem_singleton] at hiff hnew
  constructor
  · exact fun hp => ⟨hnew hp, entered_subset_named ps hp⟩
  · rintro ⟨hne, hp⟩
    exact (hiff.1 (.inr hp)).resolve_left hne

/-- The root and what is put in can be read, and all that they lead to is named. -/
theorem exists_read (h : LaidOut src root ps) {f : String} (hf : f = root ∨ f ∈ entered ps) :
    ∃ text, src.readText f = .ok text ∧ NamesIn f (Text.lines text) (named ps) := by
  obtain ⟨⟨text, ht, hl⟩, -⟩ := h
  rcases hf with rfl | hf
  · exact ⟨text, ht, numbered_fst text ▸ hl.namesIn.1⟩
  · exact hl.namesIn.2 f hf

theorem mem_named_of_leads (h : LaidOut src root ps) {f p : String}
    (hf : f = root ∨ f ∈ entered ps) (hp : Leads src f p) : p ∈ named ps := by
  obtain ⟨text, ht, hn⟩ := h.exists_read hf
  obtain ⟨text', l, target, ht', hl, htarget, hres⟩ := hp
  obtain rfl := Except.ok.inj (ht.symm.trans ht')
  obtain ⟨q, hq, hres'⟩ := hn l hl target htarget
  obtain rfl := path_unique htarget hres htarget hres'
  exact hq

/-- The files that the root reaches are the root and those that are put in. -/
theorem reaches_iff (h : LaidOut src root ps) (f : String) :
    Reaches src root f ↔ f = root ∨ f ∈ entered ps := by
  constructor
  · intro hf
    induction hf with
    | refl => exact .inl rfl
    | tail _ hstep ih =>
        rw [h.mem_entered_iff]
        exact or_iff_not_imp_left.2 fun hne => ⟨hne, h.mem_named_of_leads ih hstep⟩
  · obtain ⟨⟨text, ht, hl⟩, -⟩ := h
    rintro (rfl | hf)
    · exact .refl
    · exact (hl.transGen_of_mem_named ht (numbered_fst text ▸ List.Subset.refl _) f
        (entered_subset_named ps hf)).to_reflTransGen

/-- The files that are named are those that the root reaches in one step or more. -/
theorem mem_named_iff (h : LaidOut src root ps) (p : String) :
    p ∈ named ps ↔ Relation.TransGen (Leads src) root p := by
  constructor
  · obtain ⟨⟨text, ht, hl⟩, -⟩ := h
    exact hl.transGen_of_mem_named ht (numbered_fst text ▸ List.Subset.refl _) p
  · intro hp
    obtain ⟨f, hf, hstep⟩ := Relation.TransGen.tail'_iff.1 hp
    exact h.mem_named_of_leads ((h.reaches_iff f).1 hf) hstep

/-- Each file that the root reaches gives its other lines once and in their order. -/
theorem linesOf_of_reaches (h : LaidOut src root ps) {f : String} (hf : Reaches src root f) :
    linesOf f ps = ownLines src f := by
  have hmem := (h.reaches_iff f).1 hf
  obtain ⟨⟨text, ht, hl⟩, hfirst⟩ := h
  rw [hl.linesOf_eq hfirst List.mem_cons_self]
  by_cases he : f = root
  · rw [if_pos he, he, ownLines_of_read ht]
  · rw [if_neg he, if_pos (hmem.resolve_left he)]

theorem linesOf_of_not_reaches (h : LaidOut src root ps) {f : String}
    (hf : ¬ Reaches src root f) : linesOf f ps = [] := by
  rw [h.reaches_iff, not_or] at hf
  obtain ⟨⟨text, -, hl⟩, hfirst⟩ := h
  rw [hl.linesOf_eq hfirst List.mem_cons_self, if_neg hf.1, if_neg hf.2]

theorem of_mem_shown (h : LaidOut src root ps) :
    ∀ l ∈ shown ps, Text.Whole l ∧ target? l = none := by
  obtain ⟨⟨text, -, hl⟩, -⟩ := h
  exact hl.of_mem_shown fun l hl => Text.whole_of_mem_lines (mem_lines_of_mem_numbered hl)

/-- The lines that are shown are split again as they stand, but for returns at their ends. -/
theorem lines_shown (h : LaidOut src root ps) :
    Text.lines (Text.unlines (shown ps)) = (shown ps).map Text.bare :=
  Text.lines_unlines fun l hl => (h.of_mem_shown l hl).1

/-- No line that is shown names a file, also when the text is split into lines again. -/
theorem target?_of_mem (h : LaidOut src root ps) :
    ∀ l ∈ Text.lines (Text.unlines (shown ps)), target? l = none := by
  rw [h.lines_shown]
  intro l hl
  obtain ⟨l', hl', rfl⟩ := List.mem_map.1 hl
  rw [target?_bare, (h.of_mem_shown l' hl').2]

end LaidOut

end RenderMaterials.Include
