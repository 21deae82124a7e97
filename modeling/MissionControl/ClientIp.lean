import MissionControl.Library.Lines
import MissionControl.RateLimit

/-!
# The address of a client

A client writes what it likes into `x-forwarded-for`, and the proxies in front of the server
append to it. `extractClientIp` walks the list from its end and takes the first address that
no trusted proxy has: what was there before the proxies began to append is never looked at
(`extractClientIp_suffix`).
-/

namespace MissionControl

/-- **The entries of a forwarded list.** A header that is empty counts as none, and has no
entries. -/
def forwardedEntries (forwarded : String) : List String :=
  if forwarded = "" then [] else splitList forwarded

/-- The list of a client, with what the proxies append. -/
def appended (fromClient fromProxies : String) : String := fromClient ++ ", " ++ fromProxies

theorem trim_blank (s : List Char) : trim (String.ofList (' ' :: s)) = trim (String.ofList s) := by
  have hblank : isWhiteSpace ' ' = true := by decide
  unfold trim
  rw [String.toList_ofList, String.toList_ofList, List.dropWhile_cons_of_pos hblank]

/-- **What is appended is split by itself**: the comma ends the last part of the client. -/
theorem splitList_appended (fromClient fromProxies : String) :
    splitList (appended fromClient fromProxies)
      = splitList fromClient ++ splitList fromProxies := by
  have htext : (appended fromClient fromProxies).toList
      = fromClient.toList ++ ',' :: (' ' :: fromProxies.toList) := by
    unfold appended
    rw [String.toList_append, String.toList_append, List.append_assoc]
    rfl
  unfold splitList
  rw [htext, List.splitOn_append_cons_self, List.map_append]
  congr 1
  -- the blank behind the comma is trimmed off the first part
  rw [List.splitOn_cons_eq_if_modifyHead, if_neg (by decide)]
  cases fromProxies.toList.splitOn ',' with
  | nil => rfl
  | cons part parts =>
    rw [List.modifyHead_cons, List.map_cons, List.map_cons, trim_blank]

/-- **A client cannot choose its address**: where the proxies have appended an address that
is not trusted, the address is one of those that they appended, whatever was in front of it
and whatever the other headers say. -/
theorem extractClientIp_suffix {trusted : List String} (htrusted : trusted ≠ [])
    {fromProxies : String} (huntrusted : ∃ ip ∈ forwardedEntries fromProxies, ip ∉ trusted) :
    ∃ ip ∈ forwardedEntries fromProxies, ip ∉ trusted
      ∧ ∀ headers : String → Option String,
        (headers "x-forwarded-for" = some fromProxies
          ∨ ∃ fromClient, headers "x-forwarded-for" = some (appended fromClient fromProxies)) →
        extractClientIp trusted headers = ip := by
  have hne : fromProxies ≠ "" := by
    rintro rfl
    obtain ⟨ip, hip, -⟩ := huntrusted
    exact absurd hip List.not_mem_nil
  unfold forwardedEntries at huntrusted ⊢
  rw [if_neg hne] at huntrusted ⊢
  obtain ⟨other, hother, hnot⟩ := huntrusted
  -- the scan from the right ends at an entry of the proxies
  obtain ⟨ip, hfind⟩ : ∃ ip, (splitList fromProxies).reverse.find? (fun ip => ip ∉ trusted)
      = some ip := by
    rw [← Option.isSome_iff_exists, List.find?_isSome]
    exact ⟨other, List.mem_reverse.mpr hother, by simpa using hnot⟩
  refine ⟨ip, List.mem_reverse.mp (List.mem_of_find?_eq_some hfind), ?_, ?_⟩
  · simpa using List.find?_some hfind
  · rintro headers (hheader | ⟨fromClient, hheader⟩)
    · unfold extractClientIp
      rw [hheader]
      dsimp only
      rw [if_pos ⟨hne, htrusted⟩, hfind]
      rfl
    · have hfull : appended fromClient fromProxies ≠ "" := by
        intro hempty
        have hlength := congrArg String.length hempty
        unfold appended at hlength
        rw [String.length_append, String.length_append] at hlength
        exact absurd hlength (by simp)
      unfold extractClientIp
      rw [hheader]
      dsimp only
      rw [if_pos ⟨hfull, htrusted⟩, splitList_appended, List.reverse_append,
        List.find?_append, hfind]
      rfl

/-- A client that claims the address of a proxy, in front of the address that the proxy has
seen. -/
theorem extractClientIp_suffix_sampleForged :
    ∃ ip ∈ forwardedEntries "203.0.113.7, 10.0.0.1", ip ∉ ["10.0.0.1"]
      ∧ ∀ headers : String → Option String,
        (headers "x-forwarded-for" = some "203.0.113.7, 10.0.0.1"
          ∨ ∃ fromClient, headers "x-forwarded-for"
            = some (appended fromClient "203.0.113.7, 10.0.0.1")) →
        extractClientIp ["10.0.0.1"] headers = ip :=
  extractClientIp_suffix (List.cons_ne_nil _ _) ⟨"203.0.113.7", by decide +kernel, by decide⟩

end MissionControl
