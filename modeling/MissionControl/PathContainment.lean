import MissionControl.Library.Resolve
import MissionControl.Memory

/-!
# Paths within a base directory

`resolveWithin` compares texts: what it resolves is to begin with the text of the base and a
slash. That is a comparison of directories, name by name, since both texts are written from
lists of ordinary names – a directory whose name only begins with the name of the base is
another one. The exception is the root, whose text ends in the slash already: nothing but
the root itself is within it.
-/

namespace MissionControl

/-- The directory that the base names, from the working directory. -/
def baseDirectory (cwd baseDir : List Char) : List (List Char) :=
  Posix.against (Posix.against [] cwd) baseDir

/-- The text for a path that is not within its base. -/
def escapesBase : Exception := .error "Path escapes base directory"

theorem ordinary_baseDirectory (cwd baseDir : List Char) :
    ∀ seg ∈ baseDirectory cwd baseDir, Posix.Ordinary seg :=
  Posix.ordinary_against (Posix.ordinary_against_root cwd) baseDir

theorem resolveFrom_base (cwd baseDir : List Char) :
    Posix.resolveFrom cwd [baseDir] = Posix.absolute (baseDirectory cwd baseDir) :=
  Posix.resolveFrom_eq cwd [baseDir]

theorem resolveFrom_within (cwd baseDir relativePath : List Char) :
    Posix.resolveFrom cwd [Posix.resolveFrom cwd [baseDir], relativePath]
      = Posix.absolute (Posix.against (baseDirectory cwd baseDir) relativePath) := by
  rw [resolveFrom_base, Posix.resolveFrom_eq, List.foldl_cons, List.foldl_cons, List.foldl_nil,
    Posix.against_absolute _ (ordinary_baseDirectory cwd baseDir)]

/-- **What `resolveWithin` accepts**, whatever the texts: the base, and what lies below it. -/
theorem resolveWithin_eq (cwd baseDir relativePath : List Char)
    (hroot : baseDirectory cwd baseDir ≠ []) :
    resolveWithin cwd baseDir relativePath
      = if baseDirectory cwd baseDir <+: Posix.against (baseDirectory cwd baseDir) relativePath
        then .ok (Posix.absolute (Posix.against (baseDirectory cwd baseDir) relativePath))
        else .error escapesBase := by
  have hbase := ordinary_baseDirectory cwd baseDir
  have hiff := Posix.absolute_prefix_iff hroot hbase (Posix.ordinary_against hbase relativePath)
  unfold resolveWithin
  dsimp only
  rw [resolveFrom_within, resolveFrom_base]
  by_cases hwithin :
      baseDirectory cwd baseDir <+: Posix.against (baseDirectory cwd baseDir) relativePath
  · rw [if_pos hwithin, if_neg]
    rintro ⟨hstart, hne⟩
    rcases hiff.mpr hwithin with heq | hpre
    · exact hne heq
    · exact hstart hpre
  · rw [if_neg hwithin, if_pos]
    · rfl
    · exact ⟨fun hpre => hwithin (hiff.mp (.inr hpre)), fun heq => hwithin (hiff.mp (.inl heq))⟩

/-- **`resolveWithin` accepts just the paths within the base**, and gives the normal path
they lead to. A directory beside the base whose name goes on behind that of the base is
refused with all that is in it. -/
theorem resolveWithin_contained (cwd baseDir relativePath : List Char)
    (hroot : baseDirectory cwd baseDir ≠ []) :
    (∀ resolved, resolveWithin cwd baseDir relativePath = .ok resolved
      ↔ baseDirectory cwd baseDir <+: Posix.against (baseDirectory cwd baseDir) relativePath
        ∧ resolved
          = Posix.absolute (Posix.against (baseDirectory cwd baseDir) relativePath))
    ∧ (¬ baseDirectory cwd baseDir <+: Posix.against (baseDirectory cwd baseDir) relativePath →
      resolveWithin cwd baseDir relativePath = .error escapesBase)
    ∧ ∀ init name suffix more, baseDirectory cwd baseDir = init ++ [name] → suffix ≠ [] →
      Posix.against (baseDirectory cwd baseDir) relativePath
        = init ++ (name ++ suffix) :: more →
      resolveWithin cwd baseDir relativePath = .error escapesBase := by
  rw [resolveWithin_eq cwd baseDir relativePath hroot]
  refine ⟨fun resolved => ?_, fun hnot => if_neg hnot, ?_⟩
  · split
    · next hwithin =>
      rw [Except.ok.injEq, eq_comm]
      exact (and_iff_right hwithin).symm
    · next hnot => exact iff_of_false (fun h => by cases h) fun h => hnot h.1
  · intro init name suffix more hbase hsuffix htarget
    refine if_neg fun hwithin => hsuffix ?_
    rw [htarget, hbase, List.prefix_append_right_inj, List.cons_prefix_cons] at hwithin
    exact List.self_eq_append_right.mp hwithin.1

/-- A template below its directory, with a detour. -/
theorem resolveWithin_contained_sample :
    baseDirectory "/srv".toList "templates".toList ≠ []
      ∧ resolveWithin "/srv".toList "templates".toList "./a/..//dev.md".toList
        = .ok "/srv/templates/dev.md".toList := by
  have hroot : baseDirectory "/srv".toList "templates".toList ≠ [] := by decide
  exact ⟨hroot, ((resolveWithin_contained "/srv".toList "templates".toList
    "./a/..//dev.md".toList hroot).1 _).mpr ⟨by decide, by decide⟩⟩

end MissionControl
