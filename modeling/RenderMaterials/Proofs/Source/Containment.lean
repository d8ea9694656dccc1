import RenderMaterials.Proofs.Source.Directories
import RenderMaterials.Source.Directory

/-!
# Sources in a directory — containment

A canonical path is not absolute, so it is put behind the root, and its names are found again behind
those of the root, whatever the root is: relative, empty, `.`, `/`, with or without a slash at its
end.  A local path leads back to a source path only when it starts with the names of the root, and
only when what comes behind them does not climb above it.

* `components_eq`: the names of a path, as what it starts with and the pieces that say something.
* `components_below`: those of a canonical path behind a root.
* `NeverClimbs`, `toSourcePath_eq_some`: which local paths lead back to a source path, and to which.
* `contained`: resolving and leading back, for every root.
* `HostilePaths.contained_assets`: paths that try to leave the root.
-/

namespace RenderMaterials

namespace Text

/-- Separators that agree on a text cut it alike. -/
theorem splitBy_congr {sep sep' : Char → Bool} {cs : List Char} (h : ∀ c ∈ cs, sep c = sep' c) :
    splitBy sep cs = splitBy sep' cs := by
  induction cs with
  | nil => rfl
  | cons c cs ih =>
      rw [splitBy, splitBy, h c List.mem_cons_self, ih fun d hd => h d (List.mem_cons_of_mem c hd)]

theorem head?_splitBy_append {sep : Char → Bool} {c : Char} (hc : sep c = true)
    (a b : List Char) : (splitBy sep (a ++ c :: b)).head? = (splitBy sep a).head? := by
  rw [splitBy_append hc, List.head?_append_of_ne_nil _ (splitBy_ne_nil sep a)]

/-- The pieces of joined texts that are not empty. -/
theorem filter_splitBy_intercalate {sep : Char → Bool} {c : Char} (hc : sep c = true)
    (ps : List (List Char)) :
    (splitBy sep ([c].intercalate ps)).filter (· ≠ []) =
      ps.flatMap fun p => (splitBy sep p).filter (· ≠ []) := by
  induction ps with
  | nil => rfl
  | cons p ps ih =>
      cases ps with
      | nil => simp
      | cons q ps =>
          rw [List.intercalate_cons_cons, List.append_assoc, List.singleton_append,
            splitBy_append hc, List.filter_append, ih]
          rfl

end Text

namespace Path

/-! ### Segments that say nothing -/

theorem climb_filter (ss : List Segment) : climb (ss.filter (· ≠ [])) = climb ss := by
  induction ss with
  | nil => rfl
  | cons s ss ih =>
      by_cases hs : s = []
      · subst hs
        simpa [climb, IsName] using ih
      · simp only [List.filter_cons, ne_eq, hs, not_false_eq_true, decide_true, if_true, climb, ih]

theorem staysBelow_filter (ss : List Segment) :
    StaysBelow (ss.filter (· ≠ [])) ↔ StaysBelow ss := by
  rw [← climb_eq_zero_iff, climb_filter, climb_eq_zero_iff]

theorem survivors_filter (ss : List Segment) : survivors (ss.filter (· ≠ [])) = survivors ss := by
  induction ss with
  | nil => rfl
  | cons s ss ih =>
      by_cases hs : s = []
      · subst hs
        simpa [survivors, IsName] using ih
      · have hbelow := staysBelow_filter ss
        simp only [ne_eq, decide_not] at hbelow ih
        simp only [List.filter_cons, hs, survivors, ne_eq, decide_not, decide_false, Bool.not_false,
          if_true, hbelow, ih]

/-- Without backslashes the segments are the pieces between forward slashes. -/
theorem splitBy_slash {cs : List Char} (h : '\\' ∉ cs) :
    Text.splitBy (· = '/') cs = Text.splitBy isSeparator cs := by
  refine Text.splitBy_congr fun c hc => ?_
  have hne : c ≠ '\\' := fun e => h (e ▸ hc)
  simp [isSeparator, hne]

theorem canonical_of_normalize {path q : String} (h : normalize path = .ok q) : Canonical q := by
  obtain ⟨-, hne, rfl⟩ := normalize_eq_ok.1 h
  exact canonical_render hne (plain_survivors path)

end Path

namespace DirectorySource

open RenderMaterials.Path (Segment Plain Canonical StaysBelow survivors render)

variable {root l q : String}

/-! ### Names of local paths -/

/-- What a path starts with: `.` or `/`, or neither. -/
def lead (cs : List Char) : Location :=
  (if (Text.splitBy (· = '/') cs).head? = some ['.'] then ["."] else []) ++
    if cs.head? = some '/' then ["/"] else []

/-- The pieces of a path that are neither empty nor `.`. -/
def properNames (cs : List Char) : Location :=
  ((Text.splitBy (· = '/') cs).filter fun n => n ≠ [] ∧ n ≠ ['.']).map String.ofList

theorem properNames_append (a b : List Char) :
    properNames (a ++ '/' :: b) = properNames a ++ properNames b := by
  rw [properNames, Text.splitBy_append (by rfl), List.filter_append, List.map_append]
  rfl

theorem lead_append (a b : List Char) : lead (a ++ '/' :: b) = lead (a ++ ['/']) := by
  rw [lead, lead, Text.head?_splitBy_append (by rfl), Text.head?_splitBy_append (by rfl)]
  cases a <;> rfl

theorem lead_slash {a : List Char} (h : a ≠ []) : lead (a ++ ['/']) = lead a := by
  rw [lead, lead, Text.head?_splitBy_append (by rfl), List.head?_append_of_ne_nil _ h]

theorem ofList_eq_iff (cs ds : List Char) : String.ofList cs = String.ofList ds ↔ cs = ds :=
  ⟨fun h => by simpa using congrArg String.toList h, congrArg String.ofList⟩

theorem components_eq (path : String) :
    components path = lead path.toList ++ properNames path.toList := by
  have hnames : ((Text.splitBy (· = '/') path.toList).map String.ofList).filter
      (fun n => n ≠ "" && n ≠ ".") = properNames path.toList := by
    rw [properNames, List.filter_map]
    congr 1
    refine List.filter_congr fun n _ => ?_
    have hempty : String.ofList n = "" ↔ n = [] := ofList_eq_iff n []
    have hdot : String.ofList n = "." ↔ n = ['.'] := ofList_eq_iff n ['.']
    simp [hempty, hdot]
  have hhead : ((Text.splitBy (· = '/') path.toList).map String.ofList).head? = some "." ↔
      (Text.splitBy (· = '/') path.toList).head? = some ['.'] := by
    rw [List.head?_map, Option.map_eq_some_iff]
    constructor
    · rintro ⟨n, hn, h⟩
      rw [hn, (ofList_eq_iff n ['.']).1 h]
    · exact fun h => ⟨_, h, rfl⟩
  unfold components Disk.names Text.pieces lead
  simp only [hnames, hhead]
  by_cases hdot : (Text.splitBy (· = '/') path.toList).head? = some ['.'] <;>
    by_cases hslash : path.toList.head? = some '/' <;> simp [hdot, hslash]

/-! ### Behind a root -/

theorem properNames_canonical (hq : Canonical q) :
    properNames q.toList = (Path.segments q).map String.ofList := by
  rw [properNames, Path.splitBy_slash hq.no_backslash]
  refine congrArg (List.map String.ofList) (List.filter_eq_self.2 fun s hs => ?_)
  have hplain := hq.plain s hs
  simp [hplain.ne_nil, hplain.ne_dot]

theorem lead_canonical (hq : Canonical q) : lead q.toList = [] := by
  have hdot : (Text.splitBy (· = '/') q.toList).head? ≠ some ['.'] := by
    rw [Path.splitBy_slash hq.no_backslash]
    exact fun h => (hq.plain _ (List.mem_of_head? h)).ne_dot rfl
  rw [lead, if_neg hdot, if_neg hq.first]
  rfl

/-- The names of a canonical path that is put behind a root are those of the root, and then its
own segments. -/
theorem components_below (root : String) (hq : Canonical q) :
    components (below root q) = components root ++ (Path.segments q).map String.ofList := by
  rw [← properNames_canonical hq]
  unfold below
  -- an absolute path would take the place of the root
  rw [if_neg hq.first]
  by_cases hempty : root = ""
  · subst hempty
    have hroot : components "" = [] := by decide
    rw [hroot, if_pos (by simp), String.empty_append, components_eq, lead_canonical hq]
  · have hne : root.toList ≠ [] := by simpa using hempty
    by_cases hlast : root.toList.getLast? = some '/'
    · -- the slash at the end of the root is the one in front of the path
      obtain ⟨a, ha⟩ := List.getLast?_eq_some_iff.1 hlast
      have hfull : (root ++ q).toList = a ++ '/' :: q.toList := by simp [ha]
      rw [if_pos (by simp [hlast]), components_eq, components_eq, hfull, ha, lead_append,
        properNames_append, properNames_append, List.append_assoc, List.append_assoc]
      rfl
    · have hfull : (s!"{root}/{q}").toList = root.toList ++ '/' :: q.toList := by simp [toString]
      rw [if_neg (by simp [hempty, hlast]), components_eq, components_eq, hfull, lead_append,
        lead_slash hne, properNames_append, List.append_assoc]

/-- A canonical path is put behind a root as it is written, after a slash where one is needed. -/
theorem below_eq (root : String) (hq : Canonical q) :
    below root q = root ++ q ∨ below root q = root ++ "/" ++ q := by
  unfold below
  rw [if_neg hq.first]
  split
  · exact .inl rfl
  · exact .inr (by simp [toString])

/-! ### Leading back -/

/-- The steps of a local path: its names, `.` and `..` among them.  The `/` in front of an absolute
path is none. -/
def steps (names : Location) : List Segment := (names.filter (· ≠ "/")).map String.toList

/-- Names of which no first part has more steps up than names. -/
def NeverClimbs (names : Location) : Prop := StaysBelow (steps names)

instance (names : Location) : Decidable (NeverClimbs names) :=
  inferInstanceAs (Decidable (StaysBelow _))

/-- The names of a path without backslashes hold no separator, but for the `/` in front. -/
theorem of_mem_components (hl : '\\' ∉ l.toList) {n : String} (hn : n ∈ components l) :
    n = "/" ∨ n.toList ≠ [] ∧ ∀ c ∈ n.toList, Path.isSeparator c = false := by
  rw [components_eq, List.mem_append] at hn
  rcases hn with hn | hn
  · unfold lead at hn
    rcases List.mem_append.1 hn with hn | hn
    · split at hn
      · obtain rfl := List.mem_singleton.1 hn
        exact .inr ⟨by simp, by simp [Path.isSeparator]⟩
      · cases hn
    · split at hn
      · exact .inl (List.mem_singleton.1 hn)
      · cases hn
  · obtain ⟨s, hs, rfl⟩ := List.mem_map.1 hn
    obtain ⟨hs, hproper⟩ := List.mem_filter.1 hs
    rw [Path.splitBy_slash hl] at hs
    have hsep := Text.not_sep_of_mem_splitBy Path.isSeparator l.toList s hs
    simp only [ne_eq, decide_eq_true_eq] at hproper
    exact .inr ⟨by simpa using hproper.1, by simpa using hsep⟩

/-- Names that are joined again have the same steps. -/
theorem filter_segments_intercalate {names : Location}
    (h : ∀ n ∈ names, n = "/" ∨ n.toList ≠ [] ∧ ∀ c ∈ n.toList, Path.isSeparator c = false) :
    (Path.segments ("/".intercalate names)).filter (· ≠ []) = steps names := by
  have hjoined : ("/".intercalate names).toList = ['/'].intercalate (names.map String.toList) := by
    rw [String.toList_intercalate]
    rfl
  rw [Path.segments, hjoined, Text.filter_splitBy_intercalate rfl, steps, List.flatMap_map]
  clear hjoined
  induction names with
  | nil => rfl
  | cons n names ih =>
      have hrest := ih fun n' hn' => h n' (List.mem_cons_of_mem n hn')
      rw [List.flatMap_cons, hrest]
      rcases h n List.mem_cons_self with rfl | ⟨hne, hsep⟩
      · rfl
      · have hslash : n ≠ "/" := by
          rintro rfl
          exact absurd (hsep '/' (by simp)) (by decide)
        rw [Text.splitBy_piece hsep]
        simp [hne, hslash]

/-- A local path without backslashes leads back to a source path when it starts with the names of
the root, the rest never climbs above it, and a name is left of the rest. -/
theorem toSourcePath_eq_some (s : DirectorySource) (hl : '\\' ∉ l.toList) :
    s.toSourcePath l = some q ↔ ∃ rest, components l = components s.root ++ rest ∧
      NeverClimbs rest ∧ survivors (steps rest) ≠ [] ∧ q = render (survivors (steps rest)) := by
  unfold toSourcePath
  rw [Option.bind_eq_bind, Option.bind_eq_some_iff]
  refine exists_congr fun rest => ?_
  rw [Text.after?_eq_some_iff, Result.toOption_eq_some, Path.normalize_eq_ok]
  refine and_congr_right fun hrest => ?_
  have hnames := fun n (hn : n ∈ rest) =>
    of_mem_components hl (n := n) (hrest ▸ List.mem_append_right _ hn)
  rw [NeverClimbs, ← filter_segments_intercalate hnames, Path.staysBelow_filter,
    Path.survivors_filter]

theorem toSourcePath_below (s : DirectorySource) (hq : Path.normalize q = .ok q) :
    s.toSourcePath (below s.root q) = some q := by
  have hafter : Text.after? (components s.root) (components (below s.root q)) =
      some ((Path.segments q).map String.ofList) :=
    Text.after?_eq_some_iff.2 (components_below s.root (Path.canonical_of_normalize hq))
  have hjoined : "/".intercalate ((Path.segments q).map String.ofList) = q :=
    Path.render_segments hq
  unfold toSourcePath
  rw [hafter, Option.bind_eq_bind, Option.bind_some, hjoined, hq]
  rfl

/-! ### Containment -/

/-- A local path that is the root with the segments of a canonical path behind it. -/
structure Resolved (s : DirectorySource) (q full : String) : Prop where
  text       : full = s.root ++ q ∨ full = s.root ++ "/" ++ q
  components : components full = components s.root ++ (Path.segments q).map String.ofList
  /-- No segment is empty, `.` or `..`, and none holds a slash. -/
  plain      : ∀ n ∈ Path.segments q, Plain n
  back       : s.toSourcePath full = some q

theorem resolved_below (s : DirectorySource) (hq : Path.normalize q = .ok q) :
    s.Resolved q (below s.root q) where
  text       := below_eq s.root (Path.canonical_of_normalize hq)
  components := components_below s.root (Path.canonical_of_normalize hq)
  plain      := Path.plain_segments hq
  back       := toSourcePath_below s hq

/-- For every root: a source path is resolved exactly when it has a canonical form, and then to the
root with the segments of the canonical form behind it, none of which leaves it, and that leads back
to the canonical form.  A local path without backslashes that leads back to a source path starts
with the names of the root, and the rest never climbs above it; the source path is what is left of
the rest. -/
theorem contained (s : DirectorySource) :
    (∀ path e, s.resolve path = .error e ↔ Path.normalize path = .error e) ∧
    (∀ path q, Path.normalize path = .ok q → ∃ full, s.resolve path = .ok full ∧
      s.Resolved q full) ∧
    ∀ l q, '\\' ∉ l.toList → s.toSourcePath l = some q → ∃ rest,
      components l = components s.root ++ rest ∧ NeverClimbs rest ∧
      q = render (survivors (steps rest)) := by
  refine ⟨fun path e => ?_, fun path q hq => ?_, fun l q hl hback => ?_⟩
  · unfold resolve
    cases Path.normalize path <;> simp
  · refine ⟨below s.root q, ?_, resolved_below s (Path.normalize_idempotent hq)⟩
    unfold resolve
    rw [hq]
    rfl
  · obtain ⟨rest, hrest, hbelow, -, rfl⟩ := (toSourcePath_eq_some s hl).1 hback
    exact ⟨rest, hrest, hbelow, rfl⟩

/-! ### Paths that try to leave the root -/

namespace HostilePaths

def assets : DirectorySource := ⟨"./assets/"⟩

theorem paths : Path.normalize "/etc\\..\\.//passwd" = .ok "passwd" ∧
    assets.toSourcePath "./assets//fx/../lit.wgsl" = some "lit.wgsl" := by
  decide +kernel

/-- An absolute path stays in the directory, and a path with a step back is seen from it. -/
theorem contained_assets :
    (∃ full, assets.resolve "/etc\\..\\.//passwd" = .ok full ∧ assets.Resolved "passwd" full) ∧
    '\\' ∉ "./assets//fx/../lit.wgsl".toList ∧
    ∃ rest, components "./assets//fx/../lit.wgsl" = components assets.root ++ rest ∧
      NeverClimbs rest ∧ "lit.wgsl" = render (survivors (steps rest)) := by
  obtain ⟨-, hresolve, hback⟩ := contained assets
  have hl : '\\' ∉ "./assets//fx/../lit.wgsl".toList := by simp
  exact ⟨hresolve _ _ paths.1, hl, hback _ _ hl paths.2⟩

end HostilePaths

end DirectorySource

end RenderMaterials
