import Mathlib.Data.List.DropRight
import Mathlib.Data.List.TakeWhile
import Debugger.Breakpoint.Registry

/-!
Paths that match name the same file, so looking a path up by its file name misses no match. The
tolerant mode asks for nothing more than the same last segment: its suffix tests never decide.
-/

namespace Debugger.SourcePath

/-- What is normalized is the path with each backslash replaced. -/
theorem normalize_eq (path : String) :
    normalize path = (path.map fun c => if c = '\\' then '/' else c).toList :=
  String.toList_map.symm

theorem isSeparator_normalize (c : Char) :
    isSeparator (if c = '\\' then '/' else c) = isSeparator c := by
  by_cases h : c = '\\' <;> simp [isSeparator, h]

theorem fileNameOf_eq (cs : List Char) :
    fileNameOf cs = (cs.reverse.takeWhile fun c => !isSeparator c).reverse := rfl

/-- The last segment has no separators, so normalizing leaves it as it is. -/
theorem fileNameOf_normalize (path : String) :
    fileNameOf (normalize path) = fileNameOf path.toList := by
  have hkeep (cs : List Char) :
      (cs.map fun c => if c = '\\' then '/' else c).takeWhile (fun c => !isSeparator c) =
        cs.takeWhile fun c => !isSeparator c := by
    induction cs with
    | nil => rfl
    | cons c cs ih =>
      simp only [List.map_cons, List.takeWhile_cons, isSeparator_normalize]
      split
      · rename_i hc
        have hne : c ≠ '\\' := by
          rintro rfl
          simp [isSeparator] at hc
        rw [if_neg hne, ih]
      · rfl
  rw [fileNameOf_eq, fileNameOf_eq, normalize, ← List.map_reverse, hkeep]

theorem fileNameOf_of_isPathSuffix {path suffix : List Char}
    (h : isPathSuffix path suffix = true) : fileNameOf path = fileNameOf suffix := by
  simp only [isPathSuffix, Bool.and_eq_true, List.isSuffixOf_iff_suffix] at h
  obtain ⟨⟨start, rfl⟩, hbound⟩ := h
  have hstart : (start ++ suffix).take ((start ++ suffix).length - suffix.length) = start := by
    simp
  rw [hstart] at hbound
  rw [fileNameOf_eq, fileNameOf_eq, List.reverse_append, List.takeWhile_append]
  split
  · rename_i hall
    have hplain : ∀ c ∈ suffix.reverse, (!isSeparator c) = true :=
      List.takeWhile_eq_self_iff.mp
        (List.Sublist.eq_of_length (List.takeWhile_sublist fun c => !isSeparator c) hall)
    have hend : start.reverse.takeWhile (fun c => !isSeparator c) = [] := by
      simp only [Bool.or_eq_true, List.isEmpty_iff, decide_eq_true_eq] at hbound
      rcases hbound with (rfl | hlast) | hhead
      · rfl
      · rw [← List.head?_reverse] at hlast
        obtain ⟨rest, he⟩ := List.head?_eq_some_iff.mp hlast
        rw [he]
        rfl
      · have hm : '/' ∈ suffix.reverse := by
          simpa using List.mem_of_mem_head? (Option.mem_def.mpr hhead)
        exact absurd (hplain _ hm) (by decide)
    rw [hend, List.append_nil, List.takeWhile_eq_self_iff.mpr hplain]
  · rfl

/-- A requested path has the file name of every path that it matches. -/
theorem fileName_eq_of_matches {mode : SourceMatch} {requested reported : String}
    (h : sourceMatches mode requested reported = true) :
    fileName requested = fileName reported := by
  have hname : fileNameOf (normalize requested) = fileNameOf (normalize reported) := by
    simp only [sourceMatches] at h
    split at h
    · rename_i he
      rw [he]
    · cases mode with
      | exact => contradiction
      | tolerant =>
        simp only [Bool.or_eq_true, decide_eq_true_eq] at h
        rcases h with (h | h) | h
        · exact fileNameOf_of_isPathSuffix h
        · exact (fileNameOf_of_isPathSuffix h).symm
        · exact h
  rw [fileName, fileName, ← fileNameOf_normalize, hname, fileNameOf_normalize]

/-! ### What the modes ask for -/

theorem sourceMatches_exact {requested reported : String} :
    sourceMatches .exact requested reported = true ↔
      (requested.map fun c => if c = '\\' then '/' else c) =
        reported.map fun c => if c = '\\' then '/' else c := by
  rw [← String.toList_inj, ← normalize_eq, ← normalize_eq]
  simp [sourceMatches]

theorem sourceMatches_tolerant {requested reported : String} :
    sourceMatches .tolerant requested reported = true ↔ fileName requested = fileName reported := by
  refine ⟨fileName_eq_of_matches, fun h => ?_⟩
  have hname : fileNameOf (normalize requested) = fileNameOf (normalize reported) := by
    rw [fileNameOf_normalize, fileNameOf_normalize]
    exact String.ofList_injective h
  simp [sourceMatches, hname]

theorem sourceMatches_equivalence (mode : SourceMatch) :
    Equivalence fun requested reported => sourceMatches mode requested reported = true := by
  cases mode with
  | exact =>
    simp only [sourceMatches_exact]
    exact ⟨fun _ => rfl, Eq.symm, Eq.trans⟩
  | tolerant =>
    simp only [sourceMatches_tolerant]
    exact ⟨fun _ => rfl, Eq.symm, Eq.trans⟩

/-! ### Segments -/

/-- A path cut at every slash of either kind. -/
def segments (path : String) : List (List Char) :=
  path.toList.splitOnP isSeparator

/-- The file name is the last segment, also where that one is empty. -/
theorem getLast?_segments (path : String) :
    (segments path).getLast? = some (fileName path).toList := by
  rw [segments, fileName, String.toList_ofList]
  change _ = some (path.toList.rtakeWhile fun c => !isSeparator c)
  generalize path.toList = cs
  have hplain : ∀ c ∈ cs.rtakeWhile fun c => !isSeparator c, isSeparator c = false :=
    fun c hc => by simpa using List.mem_rtakeWhile_imp hc
  have hcs := List.rdropWhile_append_rtakeWhile (p := fun c => !isSeparator c) (l := cs)
  generalize cs.rtakeWhile (fun c => !isSeparator c) = name at *
  -- What stands before the name is nothing, or ends with a slash.
  rcases List.eq_nil_or_concat (cs.rdropWhile fun c => !isSeparator c) with h | ⟨front, c, h⟩
  · rw [h, List.nil_append] at hcs
    rw [← hcs, List.splitOnP_eq_singleton hplain]
    rfl
  · have hc : isSeparator c = true := by
      have hlast := List.rdropWhile_last_not (fun c => !isSeparator c) cs (by simp [h])
      simpa [h] using hlast
    rw [← hcs, h, List.concat_eq_append, List.append_assoc, List.singleton_append,
      List.splitOnP_append_cons _ _ hc, List.splitOnP_eq_singleton hplain, List.getLast?_concat]

theorem fileName_eq_iff {requested reported : String} :
    fileName requested = fileName reported ↔
      (segments requested).getLast? = (segments reported).getLast? := by
  rw [getLast?_segments, getLast?_segments, Option.some_inj, String.toList_inj]

/-- The waiting lines under the file name of a path are all that could match it. -/
theorem filter_pendingFor (r : Registry) (mode : SourceMatch) (source : String) :
    (r.pendingFor source).filter (fun p => sourceMatches mode p.file source) =
      r.pendingLines.filter fun p => sourceMatches mode p.file source := by
  rw [Registry.pendingFor, List.filter_filter]
  refine List.filter_congr fun p _ => ?_
  rw [Bool.and_eq_left_iff_imp, decide_eq_true_eq]
  exact fileName_eq_of_matches

/-- Tolerant matching compares last segments, exact matching whole paths up to the kind of slash.
Both are equivalences, and neither finds a waiting line outside the list kept under the file
name. -/
theorem sourceMatches_characterized :
    (∀ requested reported, sourceMatches .tolerant requested reported = true ↔
      (segments requested).getLast? = (segments reported).getLast?) ∧
    (∀ requested reported, sourceMatches .exact requested reported = true ↔
      (requested.map fun c => if c = '\\' then '/' else c) =
        reported.map fun c => if c = '\\' then '/' else c) ∧
    (∀ mode, Equivalence fun requested reported => sourceMatches mode requested reported = true) ∧
    (∀ mode requested reported, sourceMatches mode requested reported = true →
      fileName requested = fileName reported) ∧
    ∀ (r : Registry) (mode : SourceMatch) (source : String),
      (r.pendingFor source).filter (fun p => sourceMatches mode p.file source) =
        r.pendingLines.filter fun p => sourceMatches mode p.file source :=
  ⟨fun _ _ => sourceMatches_tolerant.trans fileName_eq_iff, fun _ _ => sourceMatches_exact,
    sourceMatches_equivalence, fun _ _ _ => fileName_eq_of_matches, filter_pendingFor⟩

example : segments "a/b\\C.java" = [['a'], ['b'], ['C', '.', 'j', 'a', 'v', 'a']] := by cbv

end Debugger.SourcePath
