import RenderMaterials.Proofs.Source.Directories

/-!
# Source paths — either slash

Both slashes separate the segments of a path, so that a path with forward slashes for its
backslashes has the same canonical form.  Whether a path starts at the root is told by its first
character as it is written, and only a forward slash starts there: a backslash in front counts for
nothing.

* `segments_slashed`: a path has the same segments under either slash.
* `join_agree_iff`: which paths are the same seen from a directory and from the root.
* `slashed_agree_iff`: a path is the same file under either slash, unless it starts with a backslash
  and is seen from below the root.
* `StatesFile.either_slash_fails`: such a path.
-/

namespace RenderMaterials

namespace Text

/-- Separators may be exchanged for others. -/
theorem splitBy_map {sep : Char → Bool} {f : Char → Char} (hsep : ∀ c, sep (f c) = sep c)
    (hkeep : ∀ c, sep c = false → f c = c) (cs : List Char) :
    splitBy sep (cs.map f) = splitBy sep cs := by
  induction cs with
  | nil => rfl
  | cons c cs ih =>
      cases h : sep c with
      | true => simp [splitBy, hsep, h, ih]
      | false => simp [splitBy, h, ih, hkeep c h]

end Text

namespace Path

open Result (Agree agree_of_fails)

/-! ### Forward slashes -/

/-- A forward slash for a backslash. -/
def slash (c : Char) : Char := if c = '\\' then '/' else c

/-- A path with forward slashes for its backslashes. -/
def slashed (path : String) : String := String.ofList (path.toList.map slash)

theorem isSeparator_slash (c : Char) : isSeparator (slash c) = isSeparator c := by
  by_cases h : c = '\\'
  · subst h
    rfl
  · rw [slash, if_neg h]

theorem slash_of_not_separator {c : Char} (h : isSeparator c = false) : slash c = c := by
  rw [slash, if_neg]
  rintro rfl
  cases h

theorem slash_eq_slash_iff (c : Char) : slash c = '/' ↔ c = '/' ∨ c = '\\' := by
  by_cases h : c = '\\'
  · simp [slash, h]
  · simp [slash, h]

/-- A path has the same segments under either slash. -/
theorem segments_slashed (path : String) : segments (slashed path) = segments path := by
  rw [segments, slashed, String.toList_ofList]
  exact Text.splitBy_map isSeparator_slash (fun _ => slash_of_not_separator) _

theorem head?_slashed (path : String) :
    (slashed path).toList.head? = some '/' ↔
      path.toList.head? = some '/' ∨ path.toList.head? = some '\\' := by
  rw [slashed, String.toList_ofList, List.head?_map]
  cases path.toList.head? with
  | none => simp
  | some c => simp [slash_eq_slash_iff]

/-- Paths with the same segments have the same canonical form. -/
theorem normalize_congr {path path' : String} (h : segments path = segments path') :
    Agree (normalize path) (normalize path') := by
  intro q
  rw [normalize_eq_ok_iff, normalize_eq_ok_iff, h]

/-! ### From the root and from a directory -/

section Joined

variable {directory relative relative' : String}

/-- Seen from a directory, paths with the same segments are the same, if they start at the root both
or not. -/
theorem join_congr (hs : segments relative = segments relative')
    (hr : relative.toList.head? = some '/' ↔ relative'.toList.head? = some '/') :
    Agree (join directory relative) (join directory relative') := by
  by_cases h : relative.toList.head? = some '/'
  · rw [join_of_rooted h, join_of_rooted (hr.1 h)]
    exact normalize_congr hs
  · intro q
    rw [join_eq_ok_iff h, join_eq_ok_iff (fun h' => h (hr.2 h')), hs]

/-- A path that does not start at the root is the same seen from there if and only if the directory
is the start of the source, or it is no path at all. -/
theorem join_agree_iff (hr : relative.toList.head? ≠ some '/') :
    Agree (join directory relative) (normalize relative) ↔ AtStart directory ∨
      (∀ q, join directory relative ≠ .ok q) ∧ ∀ q, normalize relative ≠ .ok q := by
  rw [← join_empty relative]
  constructor
  · intro h
    by_cases hok : ∃ q, join "" relative = .ok q
    · obtain ⟨q, hq⟩ := hok
      exact .inl (sameDirectory_of_join (by decide) hr (join_empty relative ▸ hq) h)
    · have hfails : ∀ q, join "" relative ≠ .ok q := fun q hq => hok ⟨q, hq⟩
      exact .inr ⟨fun q hq => hfails q ((h q).1 hq), hfails⟩
  · rintro (h | ⟨hj, hn⟩)
    · exact h.join relative
    · exact agree_of_fails hj hn

/-- A path that does not start with a backslash is the same under either slash. -/
theorem join_slashed (directory : String) (h : relative.toList.head? ≠ some '\\') :
    Agree (join directory relative) (join directory (slashed relative)) :=
  join_congr (segments_slashed relative).symm (by simp [head?_slashed, h])

/-- A path that starts with a backslash starts at the root under the other slash. -/
theorem join_slashed_of_backslash (directory : String)
    (h : relative.toList.head? = some '\\') :
    Agree (join directory (slashed relative)) (normalize relative) := by
  rw [join_of_rooted ((head?_slashed relative).2 (.inr h))]
  exact normalize_congr (segments_slashed relative)

theorem join_slashed_iff (directory : String) (h : relative.toList.head? = some '\\') :
    Agree (join directory relative) (join directory (slashed relative)) ↔ AtStart directory ∨
      (∀ q, join directory relative ≠ .ok q) ∧ ∀ q, normalize relative ≠ .ok q := by
  have hroot := join_slashed_of_backslash directory h
  rw [← join_agree_iff (by simp [h])]
  exact ⟨fun ha => ha.trans hroot, fun ha => ha.trans hroot.symm⟩

end Joined

/-- **A path is the same file under either slash, unless it starts with a backslash.**  One that
does is so exactly when the directory that it is seen from is the start of the source, or it is no
path under either slash; and seen from a file, when the file stands at the root, or the path is none
as it is written. -/
theorem slashed_agree_iff (directory relative : String) :
    (Agree (join directory relative) (join directory (slashed relative)) ↔
      (relative.toList.head? = some '\\' → AtStart directory ∨
        (∀ q, join directory relative ≠ .ok q) ∧ ∀ q, join directory (slashed relative) ≠ .ok q)) ∧
    ∀ file, normalize file = .ok file →
      (Agree (resolveInclude file relative) (resolveInclude file (slashed relative)) ↔
        (relative.toList.head? = some '\\' → parent file = "" ∨
          ∀ q, resolveInclude file relative ≠ .ok q)) := by
  refine ⟨?_, fun file hfile => ?_⟩
  · by_cases h : relative.toList.head? = some '\\'
    · have hroot := join_slashed_of_backslash directory h
      have hfails : (∀ q, join directory (slashed relative) ≠ .ok q) ↔
          ∀ q, normalize relative ≠ .ok q := forall_congr' fun q => not_congr (hroot q)
      rw [join_slashed_iff directory h, hfails]
      exact ⟨fun ha _ => ha, fun ha => ha h⟩
    · exact iff_of_true (join_slashed directory h) fun h' => absurd h' h
  · by_cases h : relative.toList.head? = some '\\'
    · rw [resolveInclude, resolveInclude, join_slashed_iff _ h, atStart_parent_iff hfile]
      refine ⟨fun ha _ => ha.imp id And.left,
        fun ha => (ha h).imp id fun hj => ⟨hj, fun q hq => ?_⟩⟩
      -- from the directory of a file nothing is lost that is a path from the root
      exact hj _ (join_of_normalize_ok (survivors_parent hfile).1 (by simp [h]) hq)
    · exact iff_of_true (join_slashed _ h) fun h' => absurd h' h

namespace StatesFile

theorem normalize_root : normalize "materials/root.json" = .ok "materials/root.json" := rfl

/-- A backslash in front names a file beside the including one, and a forward slash one at the
root. -/
theorem either_slash_fails :
    (¬ ∀ directory relative, Agree (join directory relative) (join directory (slashed relative))) ∧
    ¬ ∀ file relative, normalize file = .ok file →
      Agree (resolveInclude file relative) (resolveInclude file (slashed relative)) := by
  have hbeside : join "materials" "\\states.json" = .ok "materials/states.json" := rfl
  have hroot : join "materials" (slashed "\\states.json") = .ok "states.json" := rfl
  have hne : (Except.ok "materials/states.json" : Except MaterialError String) ≠
    .ok "states.json" := by simp
  refine ⟨fun h => ?_, fun h => ?_⟩
  · exact hne (hbeside.symm.trans ((h "materials" "\\states.json" _).2 hroot))
  · exact hne (hbeside.symm.trans ((h _ "\\states.json" normalize_root _).2 hroot))

/-- Within a path either slash does. -/
theorem either_slash_within :
    Agree (resolveInclude "materials/root.json" "..\\states/.\\open.json")
      (resolveInclude "materials/root.json" "../states/./open.json") ∧
    resolveInclude "materials/root.json" "..\\states/.\\open.json" = .ok "states/open.json" :=
  ⟨((slashed_agree_iff "materials" "..\\states/.\\open.json").2 _ normalize_root).2
    fun h => absurd h (by decide), rfl⟩

end StatesFile

end Path

end RenderMaterials
