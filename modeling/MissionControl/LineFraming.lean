import MissionControl.JsonRoundTrip
import MissionControl.ProvisionerClient

/-!
# Line framing

Requests and responses of the provisioner go over the socket as one line of
JSON each. Both receivers decode a chunk with `chunk.toString('utf8')` as it
arrives, put the text behind what they have, and parse the text before the
first line end.

A chunk is what the kernel hands over, and may end inside a character. The
result is `lineFraming_iff`: the object that was sent is read exactly when no
chunk does. Otherwise the receiver reads another object, or none.
-/

namespace MissionControl

/-- The object of a response, as `writeResp` is called with it. A response
that reports a run has its code and output, a success says whether it was
skipped, and a failure says why. -/
def ProvisionerResponse.toJson (response : ProvisionerResponse) : Json :=
  .obj ([("ok", .bool response.ok)]
    ++ (match response.stdout, response.stderr with
      | some stdout, some stderr =>
        [("code", match response.code with
            | some code => .num (.finite code)
            | none => .null),
          ("stdout", .str stdout), ("stderr", .str stderr)]
      | _, _ => [])
    ++ (if response.ok then [("skipped", .bool response.skipped)] else [])
    ++ (response.error.map (fun message => ("error", .str message))).toList)

/-- The `data` handler of a connection of the daemon, up to where it has read
a request: what is left in `buf`, and the request of the line, `none` if it
is no JSON. -/
def daemonData (rt : Runtime) (buf : List Char) (chunk : List ℕ) :
    List Char × List (Option Json) :=
  let buf := buf ++ Utf8.decode chunk
  if '\n' ∈ buf then
    ((buf.dropWhile (· ≠ '\n')).drop 1,
      [Json.parse rt (buf.takeWhile (· ≠ '\n'))])
  else (buf, [])

/-- **A connection of the daemon**, as a machine over the chunks that arrive;
its outputs are the requests it reads. -/
def daemonConnection (rt : Runtime) :
    Machine (List Char) (List ℕ) (Option Json) := ⟨daemonData rt⟩

def WholeCharacters (chunks : List (List ℕ)) : Prop :=
  ∀ chunk ∈ chunks, ∃ s, chunk = Utf8.encode s

/-! ## Reading a line -/

/-- A part of a line that has the line end in it is the whole line. -/
theorem eq_of_line {s r line : List Char} (h : s ++ r = line ++ ['\n'])
    (hline : '\n' ∉ line) (hs : '\n' ∈ s) : s = line ++ ['\n'] ∧ r = [] := by
  rcases List.eq_nil_or_concat r with rfl | ⟨r, c, rfl⟩
  · rw [List.append_nil] at h
    exact ⟨h, rfl⟩
  · rw [List.concat_eq_append, ← List.append_assoc] at h
    obtain ⟨rfl, -⟩ := List.append_inj' h rfl
    exact absurd (List.mem_append_left _ hs) hline

theorem takeWhile_line {line : List Char} (hline : '\n' ∉ line) :
    (line ++ ['\n']).takeWhile (· ≠ '\n') = line := by
  have hall : ∀ c ∈ line, decide (c ≠ '\n') = true := by
    intro c hc
    rw [decide_eq_true_eq]
    rintro rfl
    exact hline hc
  rw [List.takeWhile_append_of_pos hall]
  exact List.append_nil line

theorem dropWhile_line {line : List Char} (hline : '\n' ∉ line) :
    ((line ++ ['\n']).dropWhile (· ≠ '\n')).drop 1 = [] := by
  have hall : ∀ c ∈ line, decide (c ≠ '\n') = true := by
    intro c hc
    rw [decide_eq_true_eq]
    rintro rfl
    exact hline hc
  rw [List.dropWhile_append_of_pos hall]
  rfl

variable {rt : Runtime} {line : List Char}

theorem daemonConnection_silent {chunks : List (List ℕ)}
    (h : Utf8.decodeChunks chunks = []) :
    (daemonConnection rt).trace [] chunks = [] := by
  induction chunks with
  | nil => rfl
  | cons chunk chunks ih =>
    obtain ⟨hchunk, hchunks⟩ := List.append_eq_nil_iff.mp h
    have hstep : daemonData rt [] chunk = ([], []) := by
      show daemonData rt [] chunk = _
      unfold daemonData
      rw [hchunk]
      rfl
    rw [Machine.trace_cons, show (daemonConnection rt).emits [] chunk = [] from
      congrArg Prod.snd hstep, show (daemonConnection rt).next [] chunk = [] from
      congrArg Prod.fst hstep, ih hchunks]
    rfl

/-- **The daemon reads the one line that arrives**, as it is decoded. -/
theorem daemonConnection_line (hline : '\n' ∉ line) {chunks : List (List ℕ)} :
    ∀ {buf : List Char}, '\n' ∉ buf →
    buf ++ Utf8.decodeChunks chunks = line ++ ['\n'] →
    (daemonConnection rt).trace buf chunks = [Json.parse rt line] := by
  induction chunks with
  | nil =>
    intro buf hbuf h
    have hend : '\n' ∈ buf ++ Utf8.decodeChunks [] :=
      h ▸ List.mem_append_right _ List.mem_cons_self
    exact absurd (by simpa [Utf8.decodeChunks] using hend) hbuf
  | cons chunk chunks ih =>
    intro buf hbuf h
    rw [show Utf8.decodeChunks (chunk :: chunks)
      = Utf8.decode chunk ++ Utf8.decodeChunks chunks from rfl,
      ← List.append_assoc] at h
    rw [Machine.trace_cons]
    by_cases hmem : '\n' ∈ buf ++ Utf8.decode chunk
    · obtain ⟨heq, hrest⟩ := eq_of_line h hline hmem
      have hstep : daemonData rt buf chunk = ([], [Json.parse rt line]) := by
        unfold daemonData
        dsimp only
        rw [if_pos hmem, heq, takeWhile_line hline, dropWhile_line hline]
      rw [show (daemonConnection rt).emits buf chunk = _ from
        congrArg Prod.snd hstep, show (daemonConnection rt).next buf chunk = _ from
        congrArg Prod.fst hstep, daemonConnection_silent hrest]
      rfl
    · have hstep : daemonData rt buf chunk = (buf ++ Utf8.decode chunk, []) :=
        if_neg hmem
      rw [show (daemonConnection rt).emits buf chunk = _ from
        congrArg Prod.snd hstep, show (daemonConnection rt).next buf chunk = _ from
        congrArg Prod.fst hstep, ih hmem h]
      rfl

/-- **The client settles with the one line that arrives**, as it is decoded. -/
theorem callProvisioner_line (hline : '\n' ∉ line) {syntaxError : List Char → String}
    {payload : ProvisionerPayload} {chunks : List (List ℕ)} :
    ∀ {c : ProvisionerCall}, '\n' ∉ c.raw → c.outcome = none →
    c.raw ++ Utf8.decodeChunks chunks = line ++ ['\n'] →
    ((callProvisioner rt syntaxError payload).state c
      (chunks.map .data)).outcome = some (readResponse rt syntaxError line) := by
  induction chunks with
  | nil =>
    intro c hraw _ h
    have hend : '\n' ∈ c.raw ++ Utf8.decodeChunks [] :=
      h ▸ List.mem_append_right _ List.mem_cons_self
    exact absurd (by simpa [Utf8.decodeChunks] using hend) hraw
  | cons chunk chunks ih =>
    intro c hraw houtcome h
    rw [show Utf8.decodeChunks (chunk :: chunks)
      = Utf8.decode chunk ++ Utf8.decodeChunks chunks from rfl,
      ← List.append_assoc] at h
    rw [List.map_cons, Machine.state_cons]
    by_cases hmem : '\n' ∈ c.raw ++ Utf8.decode chunk
    · obtain ⟨heq, -⟩ := eq_of_line h hline hmem
      refine ProvisionerCall.outcome_kept ?_ _
      rw [ProvisionerCall.next_data_line _ hmem, heq, takeWhile_line hline]
      unfold ProvisionerCall.settle
      rw [houtcome]
      rfl
    · refine ih (c := (callProvisioner rt syntaxError payload).next c (.data chunk))
        ?_ ?_ ?_
      · rw [ProvisionerCall.next_data_pending _ hmem]
        exact hmem
      · rw [ProvisionerCall.next_data_pending _ hmem]
        exact houtcome
      · rw [ProvisionerCall.next_data_pending _ hmem]
        exact h

/-! ## What arrives of an object -/

/-- **The line that arrives of an object**: it is a line, the object is read
from it exactly if nothing of it was lost, and nothing is lost exactly if no
chunk ends inside a character. -/
theorem exists_received_line {j : Json} (hj : Json.NumbersRead rt j.numbers)
    {chunks : List (List ℕ)} (h : chunks.flatten = jsonLine rt j) :
    ∃ line, Utf8.decodeChunks chunks = line ++ ['\n'] ∧ '\n' ∉ line
      ∧ (Json.parse rt line = some j
        ↔ j.readBack = j ∧ WholeCharacters chunks) := by
  have hdamages := Utf8.decodeChunks_damages h
  have hwhole := Utf8.decodeChunks_eq_iff h
  obtain ⟨line, t, htext, hline, hend⟩ := hdamages.of_append
  obtain rfl := hend.eq_of_ascii (by decide)
  rw [htext, List.append_left_inj] at hwhole
  refine ⟨line, htext, ?_, fun hparse => ?_, fun ⟨hback, hchunks⟩ => ?_⟩
  · obtain ⟨j', rfl, hnumbers, -⟩ := Json.damages_stringify j line hj hline
    exact Json.newline_notMem_stringify j' (hnumbers ▸ hj)
  · obtain rfl := Json.eq_of_damages hj hline hparse
    rw [Json.parse_stringify hj, Option.some.injEq] at hparse
    exact ⟨hparse, hwhole.mp rfl⟩
  · rw [hwhole.mpr hchunks, Json.parse_stringify hj, hback]

theorem ProvisionerResponse.readBack_toJson (response : ProvisionerResponse) :
    response.toJson.readBack = response.toJson := by
  obtain ⟨ok, code, stdout, stderr, skipped, error⟩ := response
  cases ok <;> cases code <;> cases stdout <;> cases stderr <;> cases error <;> rfl

/-- **The daemon reads the object that was sent** exactly if JSON can say it
and no chunk ends inside a character. -/
theorem daemonConnection_reads_iff {j : Json}
    (hj : Json.NumbersRead rt j.numbers) {chunks : List (List ℕ)}
    (h : chunks.flatten = jsonLine rt j) :
    (daemonConnection rt).trace [] chunks = [some j]
      ↔ j.readBack = j ∧ WholeCharacters chunks := by
  obtain ⟨line, htext, hline, hiff⟩ := exists_received_line hj h
  rw [daemonConnection_line hline List.not_mem_nil htext, ← hiff,
    List.singleton_inj]

/-- **The client resolves with the object that was sent** exactly if JSON can
say it and no chunk ends inside a character. -/
theorem callProvisioner_reads_iff {syntaxError : List Char → String}
    {payload : ProvisionerPayload} {j : Json}
    (hj : Json.NumbersRead rt j.numbers) {chunks : List (List ℕ)}
    (h : chunks.flatten = jsonLine rt j) :
    ((callProvisioner rt syntaxError payload).state .start
        (.connect :: chunks.map .data)).outcome = some (.ok j)
      ↔ j.readBack = j ∧ WholeCharacters chunks := by
  obtain ⟨line, htext, hline, hiff⟩ := exists_received_line hj h
  rw [Machine.state_cons, callProvisioner_line
    (c := (callProvisioner rt syntaxError payload).next .start .connect)
    hline List.not_mem_nil rfl htext, ← hiff, Option.some.injEq]
  unfold readResponse
  cases Json.parse rt line with
  | none => simp
  | some j => simp

/-- **Lines are framed exactly when no chunk ends inside a character**, in
both directions. The daemon reads the request that was sent exactly if its
line was cut between characters only, and the request holds nothing that
JSON cannot say; the client resolves with the response that was sent exactly
if its line was. -/
theorem lineFraming_iff (rt : Runtime) (syntaxError : List Char → String)
    (payload : ProvisionerPayload) (response : ProvisionerResponse)
    (hpayload : Json.NumbersRead rt payload.toJson.numbers)
    (hresponse : Json.NumbersRead rt response.toJson.numbers) :
    (∀ chunks, chunks.flatten = jsonLine rt payload.toJson →
      ((daemonConnection rt).trace [] chunks = [some payload.toJson]
        ↔ payload.toJson.readBack = payload.toJson ∧ WholeCharacters chunks))
    ∧ ∀ chunks, chunks.flatten = jsonLine rt response.toJson →
      (((callProvisioner rt syntaxError payload).state .start
          (.connect :: chunks.map .data)).outcome = some (.ok response.toJson)
        ↔ WholeCharacters chunks) := by
  refine ⟨fun chunks h => daemonConnection_reads_iff hpayload h, fun chunks h => ?_⟩
  rw [callProvisioner_reads_iff hresponse h, response.readBack_toJson,
    eq_self_iff_true, true_and]

/-- A response with a character that is not ASCII in its output. -/
def sampleResponse : ProvisionerResponse :=
  ⟨true, some 0, some "é", some "", false, none⟩

theorem numbersRead_samplePayload :
    Json.NumbersRead sampleRuntime samplePayload.toJson.numbers := by
  intro q hq
  obtain rfl : q = 15000 := List.mem_singleton.mp hq
  exact ⟨by decide +kernel, List.all_eq_true.mp (by decide +kernel),
    by decide +kernel⟩

theorem numbersRead_sampleResponse :
    Json.NumbersRead sampleRuntime sampleResponse.toJson.numbers := by
  intro q hq
  obtain rfl : q = 0 := List.mem_singleton.mp hq
  exact ⟨by decide +kernel, List.all_eq_true.mp (by decide +kernel),
    by decide +kernel⟩

/-- A request and a response that arrive in one chunk are read. -/
theorem lineFraming_iff_sample :
    (daemonConnection sampleRuntime).trace []
        [jsonLine sampleRuntime samplePayload.toJson] = [some samplePayload.toJson]
    ∧ ((callProvisioner sampleRuntime (fun _ => "") samplePayload).state .start
        [.connect, .data (jsonLine sampleRuntime sampleResponse.toJson)]).outcome
      = some (.ok sampleResponse.toJson) := by
  have hwhole : ∀ j, WholeCharacters [jsonLine sampleRuntime j] := by
    intro j chunk hchunk
    exact ⟨_, List.mem_singleton.mp hchunk⟩
  obtain ⟨hrequest, hresponse⟩ := lineFraming_iff sampleRuntime (fun _ => "")
    samplePayload sampleResponse numbersRead_samplePayload
    numbersRead_sampleResponse
  exact ⟨(hrequest [_] (List.append_nil _)).mpr ⟨rfl, hwhole _⟩,
    (hresponse [_] (List.append_nil _)).mpr (hwhole _)⟩

/-- The line of a response, cut behind the first octet of its `é`. -/
def sampleCut : List (List ℕ) :=
  [(jsonLine sampleRuntime sampleResponse.toJson).take 31,
    (jsonLine sampleRuntime sampleResponse.toJson).drop 31]

/-- **A response that is not read**: its line arrives in two chunks, cut
inside a character. -/
theorem lineFraming_cut :
    sampleCut.flatten = jsonLine sampleRuntime sampleResponse.toJson
    ∧ ((callProvisioner sampleRuntime (fun _ => "") samplePayload).state .start
        (.connect :: sampleCut.map .data)).outcome
      ≠ some (.ok sampleResponse.toJson) := by
  have hcut : sampleCut.flatten = jsonLine sampleRuntime sampleResponse.toJson := by
    unfold sampleCut
    rw [List.flatten_cons, List.flatten_singleton, List.take_append_drop]
  refine ⟨hcut, fun hread => ?_⟩
  rw [callProvisioner_reads_iff numbersRead_sampleResponse hcut] at hread
  obtain ⟨s, hs⟩ := hread.2 _ List.mem_cons_self
  have hback := congrArg Utf8.encode (congrArg Utf8.decode hs)
  rw [Utf8.decode_encode, ← hs] at hback
  exact absurd hback (by decide +kernel)

end MissionControl
