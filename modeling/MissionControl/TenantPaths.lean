import MissionControl.Grammar

/-!
# The paths of a tenant

Both processes build the paths of a tenant with `joinPosix` from the home
root, the user name and a directory name. Where the home root is a normal
absolute path, what they build is the absolute path of its segments with the
further names appended (`joinPosix_eq`) – and two such paths compare as
lists of segments.
-/

namespace MissionControl

def homeSegments (root : String) : List (List Char) :=
  Posix.segments (Posix.stripSlashes root.toList)

/-- The absolute path with the given segments, as a string. -/
def absolutePath (segs : List (List Char)) : String :=
  String.ofList (Posix.absolute segs)

section HomeRoot

variable {root : String} (hroot : Posix.IsNormalAbsolute root.toList)

include hroot

theorem stripSlashes_homeRoot :
    Posix.stripSlashes root.toList = Posix.absolute (homeSegments root)
      ∧ homeSegments root ≠ []
      ∧ ∀ seg ∈ homeSegments root, Posix.Ordinary seg := by
  obtain ⟨segs, hne, hsegs, hstrip⟩ := hroot.exists_segments
  have hhome : homeSegments root = segs := by
    rw [homeSegments, hstrip, Posix.segments_absolute hne hsegs]
  rw [hhome]
  exact ⟨hstrip, hne, hsegs⟩

theorem homeSegments_ne_nil : homeSegments root ≠ [] :=
  (stripSlashes_homeRoot hroot).2.1

theorem homeSegments_ordinary : ∀ seg ∈ homeSegments root, Posix.Ordinary seg :=
  (stripSlashes_homeRoot hroot).2.2

theorem ordinary_under_home {more : List (List Char)}
    (hmore : ∀ seg ∈ more, Posix.Ordinary seg) :
    ∀ seg ∈ homeSegments root ++ more, Posix.Ordinary seg := by
  intro seg hseg
  rcases List.mem_append.mp hseg with hseg | hseg
  · exact homeSegments_ordinary hroot seg hseg
  · exact hmore seg hseg

/-- **What `joinPosix` builds under a home root**: the further names are
appended to its segments. -/
theorem joinPosix_eq (more : List String)
    (hmore : ∀ m ∈ more, Posix.Ordinary m.toList) :
    joinPosix (root :: more)
      = absolutePath (homeSegments root ++ more.map String.toList) := by
  obtain ⟨hstrip, hne, hsegs⟩ := stripSlashes_homeRoot hroot
  have hclean : more.map (fun p => Posix.stripSlashes p.toList)
      = more.map String.toList :=
    List.map_congr_left (fun m hm =>
      Posix.stripSlashes_ordinary (hmore m hm).2.1)
  have hmore' : ∀ seg ∈ more.map String.toList, Posix.Ordinary seg := by
    intro seg hseg
    obtain ⟨m, hm, rfl⟩ := List.mem_map.mp hseg
    exact hmore m hm
  unfold joinPosix absolutePath
  rw [List.map_cons, hclean, hstrip, Posix.join_absolute hne hsegs hmore']

theorem absolutePath_concat (more : List (List Char)) (m : String) :
    absolutePath (homeSegments root ++ more ++ [m.toList])
      = absolutePath (homeSegments root ++ more) ++ "/" ++ m := by
  unfold absolutePath
  rw [Posix.absolute_concat (List.append_ne_nil_of_left_ne_nil
    (homeSegments_ne_nil hroot) more), ← String.toList_inj]
  simp

/-- **The home of a user**, written out. -/
theorem joinPosix_home {u : String} (hu : Posix.Ordinary u.toList) :
    joinPosix [root, u] = joinPosix [root] ++ "/" ++ u := by
  have h := absolutePath_concat hroot [] u
  rw [joinPosix_eq hroot [u] (by simpa using hu),
    joinPosix_eq hroot [] (by simp)]
  simpa using h

/-- **A directory in the home of a user**, written out. -/
theorem joinPosix_home_dir {u m : String} (hu : Posix.Ordinary u.toList)
    (hm : Posix.Ordinary m.toList) :
    joinPosix [root, u, m] = joinPosix [root] ++ "/" ++ u ++ "/" ++ m := by
  rw [← joinPosix_home hroot hu,
    joinPosix_eq hroot [u, m] (by simpa using ⟨hu, hm⟩),
    joinPosix_eq hroot [u] (by simpa using hu)]
  have h := absolutePath_concat hroot [u.toList] m
  simpa using h

end HomeRoot

/-- **A path that is joined and ends in ordinary names** ends in the last of
them, whatever comes before. -/
theorem pathJoin_concat (parts : List String) {a b : String}
    (ha : Posix.Ordinary a.toList) (hb : Posix.Ordinary b.toList) :
    pathJoin (parts ++ [a, b]) = pathJoin (parts ++ [a]) ++ "/" ++ b := by
  unfold pathJoin
  rw [List.map_append, List.map_append, List.map_cons, List.map_singleton,
    List.map_singleton, Posix.join_append_ordinary _ ha hb, ← String.toList_inj]
  simp

theorem ordinary_openclaw : Posix.Ordinary ".openclaw".toList := by decide

end MissionControl
