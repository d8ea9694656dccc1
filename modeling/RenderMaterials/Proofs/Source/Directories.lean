import RenderMaterials.Proofs.Result
import RenderMaterials.Proofs.Source.Surviving

/-!
# Source paths — directories

A path that does not start at the root is seen from a directory through the names that are left of
the directory's segments.

* `join_eq_ok_iff`: what such a path is.
* `SameDirectory`: two spellings of one directory; `join_agree_iff_sameDirectory`: they are those
  that all paths are seen alike from.
* `parent_eq`: the directory of a canonical path.
* `AtStart`: the start of the source; `atStart_parent_iff`: files at the root are seen from there.
-/

namespace RenderMaterials.Path

open Result (Agree)

variable {directory directory' relative file q : String}

/-! ### Seen from a directory -/

theorem join_of_rooted (h : relative.toList.head? = some '/') :
    join directory relative = normalize relative := if_pos (by simp [h])

theorem join_empty (relative : String) : join "" relative = normalize relative := if_pos (by simp)

/-- A path that does not start at the root is read behind the segments of the directory. -/
theorem join_eq_ok_iff (hr : relative.toList.head? ≠ some '/') :
    join directory relative = .ok q ↔ ∃ ss,
      surviving (segments directory ++ segments relative) = some ss ∧ ss ≠ [] ∧ render ss = q := by
  by_cases hd : directory = ""
  · -- the empty directory has one segment, and that counts for nothing
    subst hd
    rw [join_empty]
    exact normalize_eq_ok_iff
  · rw [join, if_neg (by simp [hr, String.isEmpty_iff, hd]), normalize_eq_ok_iff, segments_in]

/-- A directory that does not leave the source takes the names of a path behind its own. -/
theorem join_of_normalize_ok (hb : StaysBelow (segments directory))
    (hr : relative.toList.head? ≠ some '/') (h : normalize relative = .ok q) :
    join directory relative =
      .ok (render (survivors (segments directory) ++ survivors (segments relative))) := by
  obtain ⟨hbelow, hne, rfl⟩ := normalize_eq_ok.1 h
  rw [join_eq_ok_iff hr, surviving_append hb, (climb_eq_zero_iff _).2 hbelow]
  exact ⟨_, by simp, by simp [hne], rfl⟩

/-- A directory that leaves the source has no file in it. -/
theorem not_join_of_leaves (hb : ¬ StaysBelow (segments directory))
    (hr : relative.toList.head? ≠ some '/') : join directory relative ≠ .ok q := by
  have hnone : (segments directory).foldlM push [] = none := by
    rw [foldlM_push_eq, if_neg]
    rwa [List.length_nil, Nat.le_zero, climb_eq_zero_iff]
  rw [Ne, join_eq_ok_iff hr, surviving, List.foldlM_append, hnone]
  rintro ⟨ss, h, -⟩
  cases h

/-! ### Spellings of a directory -/

/-- Two spellings of one directory: neither leaves the source, and the same names are left. -/
structure SameDirectory (directory directory' : String) : Prop where
  below  : StaysBelow (segments directory)
  below' : StaysBelow (segments directory')
  names  : survivors (segments directory) = survivors (segments directory')

/-- A path is the same seen from one directory in two spellings. -/
theorem SameDirectory.join (h : SameDirectory directory directory') (relative : String) :
    Agree (Path.join directory relative) (Path.join directory' relative) := by
  by_cases hr : relative.toList.head? = some '/'
  · rw [join_of_rooted hr, join_of_rooted hr]
    exact .refl _
  · intro q
    rw [join_eq_ok_iff hr, join_eq_ok_iff hr, surviving_append h.below, surviving_append h.below',
      h.names]

/-- Directories that see one file alike are the same. -/
theorem sameDirectory_of_join (hb : StaysBelow (segments directory'))
    (hr : relative.toList.head? ≠ some '/') (hn : normalize relative = .ok q)
    (h : Agree (join directory relative) (join directory' relative)) :
    SameDirectory directory directory' := by
  have hj' := join_of_normalize_ok hb hr hn
  have hj := (h _).2 hj'
  by_cases hbelow : StaysBelow (segments directory)
  · refine ⟨hbelow, hb, ?_⟩
    have hne := (normalize_eq_ok.1 hn).2.1
    have hplain : ∀ d, ∀ s ∈ survivors (segments d) ++ survivors (segments relative), Plain s :=
      fun d s hs =>
        (List.mem_append.1 hs).elim (plain_survivors d s) (plain_survivors relative s)
    -- the names are found again in the path, and those of the directory stand in front
    have e := congrArg segments
      (Except.ok.inj ((join_of_normalize_ok hbelow hr hn).symm.trans hj))
    rw [segments_render (by simp [hne]) (hplain directory),
      segments_render (by simp [hne]) (hplain directory')] at e
    exact List.append_cancel_right e
  · exact absurd hj (not_join_of_leaves hbelow hr)

/-- All paths are seen alike from two directories exactly when they are the same. -/
theorem join_agree_iff_sameDirectory (hb : StaysBelow (segments directory')) :
    (∀ relative, Agree (join directory relative) (join directory' relative)) ↔
      SameDirectory directory directory' :=
  ⟨fun h => sameDirectory_of_join hb (by decide) (rfl : normalize "x" = .ok "x") (h "x"),
    SameDirectory.join⟩

/-! ### The directory of a file -/

theorem render_segments (h : normalize file = .ok file) : render (segments file) = file := by
  rw [segments_of_normalize h]
  exact (normalize_eq_ok.1 h).2.2.symm

theorem plain_segments (h : normalize file = .ok file) : ∀ s ∈ segments file, Plain s := by
  rw [segments_of_normalize h]
  exact plain_survivors file

/-- The directory of a canonical path has all its segments but the last. -/
theorem parent_eq (h : normalize file = .ok file) :
    parent file = render (segments file).dropLast := by
  have hne : segments file ≠ [] := Text.splitBy_ne_nil _ _
  have hsplit : Text.splitBy (· = '/') file.toList = segments file := by
    conv_lhs => rw [← render_segments h, toList_render]
    refine Text.splitBy_intercalate (by simp) hne fun s hs c hc => ?_
    have hsep := (plain_segments h s hs).not_separator c hc
    exact decide_eq_false fun e => by simp [isSeparator, e] at hsep
  rw [parent, hsplit]

/-- A directory of plain segments keeps them all. -/
theorem survivors_render {ss : List Segment} (h : ∀ s ∈ ss, Plain s) :
    StaysBelow (segments (render ss)) ∧ survivors (segments (render ss)) = ss := by
  by_cases hne : ss = []
  · subst hne
    exact ⟨by decide, rfl⟩
  · have hs := surviving_plain h
    rw [segments_render hne h]
    rw [surviving_eq] at hs
    split at hs
    · next hb => exact ⟨hb, Option.some.inj hs⟩
    · cases hs

/-- The directory of a canonical path does not leave the source, and keeps all its segments. -/
theorem survivors_parent (h : normalize file = .ok file) :
    StaysBelow (segments (parent file)) ∧
      survivors (segments (parent file)) = (segments file).dropLast := by
  rw [parent_eq h]
  exact survivors_render fun s hs => plain_segments h s (List.dropLast_subset _ hs)

/-- A directory that is the start of the source: the empty one, and those whose names are all taken
back. -/
def AtStart (directory : String) : Prop := SameDirectory directory ""

/-- The directory of a canonical path is the start of the source when it is empty. -/
theorem atStart_parent_iff (h : normalize file = .ok file) :
    AtStart (parent file) ↔ parent file = "" := by
  constructor
  · rintro ⟨-, -, he⟩
    rw [(survivors_parent h).2] at he
    rw [parent_eq h, he]
    rfl
  · intro he
    rw [he]
    exact ⟨by decide, by decide, rfl⟩

end RenderMaterials.Path
