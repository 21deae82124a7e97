import MissionControl.Library.Composition
import MissionControl.Library.Utf8

/-!
# Event streams

The text format of server-sent events, as an event source reads it: octets are decoded as they
come, lines end with a line feed, a carriage return or both, a line is a comment or sets a field,
and an empty line dispatches what the `data` lines before it say.

What a stream of frames is read to (`trace_frames`) is proved for every place where the octets can
stop: the messages are those of the frames that have arrived whole. As the reader takes octet
after octet, it makes no difference how they were cut into chunks.
-/

namespace Utf8

/-- **The decoder of a stream**, which keeps what it has of a character. -/
def decoder : Machine State ℕ Char := ⟨fun s b => (s.step b).swap⟩

theorem decoder_cons {s t : State} {b : ℕ} {out : List Char} (h : s.step b = (out, t))
    (bs : List ℕ) : decoder.state s (b :: bs) = decoder.state t bs
      ∧ decoder.trace s (b :: bs) = out ++ decoder.trace t bs := by
  rw [Machine.state_cons, Machine.trace_cons]
  exact ⟨congrArg (fun r => decoder.state r.2 bs) h,
    congrArg (fun r => r.1 ++ decoder.trace r.2 bs) h⟩

section Character

variable (b more lower upper code : ℕ) (bs : List ℕ)

theorem decoder_first {s : State} (h : first b = some ([], s)) :
    decoder.state .start (b :: bs) = decoder.state s bs
      ∧ decoder.trace .start (b :: bs) = decoder.trace s bs := by
  have hstep : State.start.step b = ([], s) := by
    show (first b).getD ([replacement], .start) = _
    rw [h, Option.getD_some]
  exact decoder_cons hstep bs

theorem decoder_next (h : lower ≤ b ∧ b ≤ upper) :
    decoder.state (.need (more + 1) lower upper code) (b :: bs)
        = decoder.state (.need more 0x80 0xBF (code * 64 + (b - 0x80))) bs
      ∧ decoder.trace (.need (more + 1) lower upper code) (b :: bs)
        = decoder.trace (.need more 0x80 0xBF (code * 64 + (b - 0x80))) bs := by
  have hstep : (State.need (more + 1) lower upper code).step b
      = ([], .need more 0x80 0xBF (code * 64 + (b - 0x80))) := if_pos h
  exact decoder_cons hstep bs

theorem decoder_last (h : lower ≤ b ∧ b ≤ upper) :
    decoder.state (.need 0 lower upper code) [b] = .start
      ∧ decoder.trace (.need 0 lower upper code) [b]
        = [Char.ofNat (code * 64 + (b - 0x80))] := by
  have hstep : (State.need 0 lower upper code).step b
      = ([Char.ofNat (code * 64 + (b - 0x80))], .start) := if_pos h
  exact decoder_cons hstep []

end Character

/-- **The octets of a character** bring the character and nothing else. -/
theorem decoder_encodeChar (c : Char) :
    decoder.state .start (encodeChar c) = .start
      ∧ decoder.trace .start (encodeChar c) = [c] := by
  have hc := toNat_bounds c
  have hself : ∀ n, n = c.toNat → Char.ofNat n = c := by
    rintro n rfl
    exact Char.ofNat_toNat c
  unfold encodeChar
  dsimp only
  split
  · next h =>
    have hstep : State.start.step c.toNat = ([Char.ofNat c.toNat], .start) := by
      have hfirst : first c.toNat = some ([Char.ofNat c.toNat], .start) := if_pos h
      show (first c.toNat).getD ([replacement], .start) = _
      rw [hfirst, Option.getD_some]
    obtain ⟨hstate, htrace⟩ := decoder_cons hstep []
    rw [hstate, htrace, hself _ rfl]
    exact ⟨rfl, rfl⟩
  split
  · next h₁ h₂ =>
    obtain ⟨hstate, htrace⟩ := decoder_first (0xC0 + c.toNat / 64) [0x80 + c.toNat % 64] (by
      unfold first
      rw [if_neg (by omega), if_pos (by omega)])
    obtain ⟨hstate₁, htrace₁⟩ := decoder_last (0x80 + c.toNat % 64) 0x80 0xBF
      (0xC0 + c.toNat / 64 - 0xC0) (by omega)
    rw [hstate, htrace, hstate₁, htrace₁, hself _ (by omega)]
    exact ⟨rfl, rfl⟩
  split
  · next h₁ h₂ h₃ =>
    obtain ⟨hstate, htrace⟩ := decoder_first (0xE0 + c.toNat / 4096)
      [0x80 + c.toNat / 64 % 64, 0x80 + c.toNat % 64] (by
        unfold first
        rw [if_neg (by omega), if_neg (by omega), if_pos (by omega)])
    obtain ⟨hstate₁, htrace₁⟩ := decoder_next (0x80 + c.toNat / 64 % 64) 0
      (if 0xE0 + c.toNat / 4096 = 0xE0 then 0xA0 else 0x80)
      (if 0xE0 + c.toNat / 4096 = 0xED then 0x9F else 0xBF) (0xE0 + c.toNat / 4096 - 0xE0)
      [0x80 + c.toNat % 64] (by split <;> split <;> omega)
    obtain ⟨hstate₂, htrace₂⟩ := decoder_last (0x80 + c.toNat % 64) 0x80 0xBF
      ((0xE0 + c.toNat / 4096 - 0xE0) * 64 + (0x80 + c.toNat / 64 % 64 - 0x80)) (by omega)
    rw [hstate, htrace, hstate₁, htrace₁, hstate₂, htrace₂, hself _ (by omega)]
    exact ⟨rfl, rfl⟩
  · next h₁ h₂ h₃ =>
    obtain ⟨hstate, htrace⟩ := decoder_first (0xF0 + c.toNat / 262144)
      [0x80 + c.toNat / 4096 % 64, 0x80 + c.toNat / 64 % 64, 0x80 + c.toNat % 64] (by
        unfold first
        rw [if_neg (by omega), if_neg (by omega), if_neg (by omega), if_pos (by omega)])
    obtain ⟨hstate₁, htrace₁⟩ := decoder_next (0x80 + c.toNat / 4096 % 64) 1
      (if 0xF0 + c.toNat / 262144 = 0xF0 then 0x90 else 0x80)
      (if 0xF0 + c.toNat / 262144 = 0xF4 then 0x8F else 0xBF) (0xF0 + c.toNat / 262144 - 0xF0)
      [0x80 + c.toNat / 64 % 64, 0x80 + c.toNat % 64] (by split <;> split <;> omega)
    obtain ⟨hstate₂, htrace₂⟩ := decoder_next (0x80 + c.toNat / 64 % 64) 0 0x80 0xBF
      ((0xF0 + c.toNat / 262144 - 0xF0) * 64 + (0x80 + c.toNat / 4096 % 64 - 0x80))
      [0x80 + c.toNat % 64] (by omega)
    obtain ⟨hstate₃, htrace₃⟩ := decoder_last (0x80 + c.toNat % 64) 0x80 0xBF
      (((0xF0 + c.toNat / 262144 - 0xF0) * 64 + (0x80 + c.toNat / 4096 % 64 - 0x80)) * 64
        + (0x80 + c.toNat / 64 % 64 - 0x80)) (by omega)
    rw [hstate, htrace, hstate₁, htrace₁, hstate₂, htrace₂, hstate₃, htrace₃, hself _ (by omega)]
    exact ⟨rfl, rfl⟩

/-- **The octets of a text** bring the text and nothing else. -/
theorem decoder_encode (s : List Char) :
    decoder.state .start (encode s) = .start ∧ decoder.trace .start (encode s) = s := by
  induction s with
  | nil => exact ⟨rfl, rfl⟩
  | cons c s ih =>
    obtain ⟨hstate, htrace⟩ := decoder_encodeChar c
    unfold encode at ih ⊢
    rw [List.flatMap_cons, Machine.state_append, Machine.trace_append, hstate, htrace, ih.1, ih.2]
    exact ⟨rfl, rfl⟩

end Utf8

namespace EventSource

/-! ## The reader -/

/-- **A message**: the type and the data of an event, and the last id there was. -/
structure Message where
  type : List Char
  data : List Char
  lastEventId : List Char
  deriving DecidableEq

/-- **Where a reader stands**: its buffers, the line it is in, whether the character before was a
carriage return, and whether there has been none. -/
structure Reader where
  fresh : Bool
  afterReturn : Bool
  line : List Char
  event : List Char
  data : List Char
  lastEventId : List Char

namespace Reader

/-- The field of a line is set. The time to wait before a reconnection is not kept here. -/
def setField (r : Reader) (name value : List Char) : Reader :=
  if name = "event".toList then { r with event := value }
  else if name = "data".toList then { r with data := r.data ++ value ++ ['\n'] }
  else if name = "id".toList ∧ Char.ofNat 0 ∉ value then { r with lastEventId := value }
  else r

/-- What stands behind the first colon of a line, without a space in front. -/
def fieldValue (line : List Char) : List Char :=
  match (line.dropWhile (· ≠ ':')).drop 1 with
  | ' ' :: value => value
  | value => value

def dispatch (r : Reader) : Reader × List Message :=
  if r.data = [] then ({ r with event := [] }, [])
  else ({ r with event := [], data := [] },
    [⟨if r.event = [] then "message".toList else r.event, r.data.dropLast, r.lastEventId⟩])

/-- **The end of a line.** -/
def endLine (r : Reader) : Reader × List Message :=
  let line := r.line
  let r := { r with line := [] }
  if line = [] then r.dispatch
  else if line.head? = some ':' then (r, [])
  else (r.setField (line.takeWhile (· ≠ ':')) (fieldValue line), [])

/-- **A character.** A byte order mark in front of everything is skipped, and so is a line feed
behind a carriage return. -/
def read (r : Reader) (c : Char) : Reader × List Message :=
  if r.fresh = true ∧ c = Char.ofNat 0xFEFF then ({ r with fresh := false }, [])
  else if c = '\n' ∧ r.afterReturn = true then ({ r with fresh := false, afterReturn := false }, [])
  else if c = '\n' ∨ c = '\r' then
    { r with fresh := false, afterReturn := decide (c = '\r') }.endLine
  else ({ r with fresh := false, afterReturn := false, line := r.line ++ [c] }, [])

def initial : Reader := ⟨true, false, [], [], [], []⟩

structure Idle (r : Reader) : Prop where
  afterReturn : r.afterReturn = false
  line : r.line = []
  event : r.event = []
  data : r.data = []

end Reader

def characters : Machine Reader Char Message := ⟨Reader.read⟩

/-- **An event source**, as it takes octet after octet. -/
def stream : Machine (Utf8.State × Reader) ℕ Message := Utf8.decoder.pipe characters

def initial : Utf8.State × Reader := (.start, .initial)

/-! ## Frames -/

/-- **A frame**: an event of one line of data, or a comment. -/
inductive Frame where
  | data (text : List Char)
  | comment (text : List Char)
  deriving DecidableEq

namespace Frame

/-- The one line of a frame, in front of the empty one. -/
def line : Frame → List Char
  | data text => "data: ".toList ++ text
  | comment text => ':' :: text

/-- **The text of a frame.** -/
def text (f : Frame) : List Char := f.line ++ ['\n', '\n']

def octets (f : Frame) : List ℕ := Utf8.encode f.text

def messages (id : List Char) : Frame → List Message
  | data text => [⟨"message".toList, text, id⟩]
  | comment _ => []

/-- There is no end of a line in the text. -/
def Plain : Frame → Prop
  | data text => '\n' ∉ text ∧ '\r' ∉ text
  | comment text => '\n' ∉ text ∧ '\r' ∉ text

/-- **The frames that are whole** in the first octets of a stream. -/
def whole : List Frame → ℕ → List Frame
  | [], _ => []
  | f :: fs, n => if f.octets.length ≤ n then f :: whole fs (n - f.octets.length) else []

end Frame

variable {r : Reader} {f : Frame}

theorem read_of_ne {c : Char} (hfresh : r.fresh = true → c ≠ Char.ofNat 0xFEFF) (hn : c ≠ '\n')
    (hr : c ≠ '\r') :
    r.read c = ({ r with fresh := false, afterReturn := false, line := r.line ++ [c] }, []) := by
  unfold Reader.read
  rw [if_neg fun h => hfresh h.1 h.2, if_neg fun h => hn h.1, if_neg (by simp [hn, hr])]

theorem read_newline (hr : r.afterReturn = false) :
    r.read '\n' = { r with fresh := false, afterReturn := false }.endLine := by
  unfold Reader.read
  rw [if_neg (by simp), if_neg (by simp [hr]), if_pos (Or.inl rfl)]
  rfl

theorem characters_line {l : List Char} (hn : '\n' ∉ l) (hr : '\r' ∉ l) :
    ∀ r : Reader, r.fresh = false → r.afterReturn = false →
      characters.state r l = { r with line := r.line ++ l } ∧ characters.trace r l = [] := by
  induction l with
  | nil =>
    intro r _ _
    rw [Machine.state_nil, List.append_nil]
    exact ⟨rfl, rfl⟩
  | cons c l ih =>
    intro r hfresh hreturn
    obtain ⟨hnc, hnl⟩ := List.ne_and_not_mem_of_not_mem_cons hn
    obtain ⟨hrc, hrl⟩ := List.ne_and_not_mem_of_not_mem_cons hr
    have hread : characters.step r c = ({ r with line := r.line ++ [c] }, []) := by
      show r.read c = _
      rw [read_of_ne (fun h => absurd (h.symm.trans hfresh) Bool.noConfusion) hnc.symm hrc.symm,
        hfresh, hreturn]
    obtain ⟨hstate, htrace⟩ := ih hnl hrl { r with line := r.line ++ [c] } hfresh hreturn
    rw [Machine.state_cons, Machine.trace_cons, show characters.next r c = _ from
      congrArg Prod.fst hread, show characters.emits r c = _ from congrArg Prod.snd hread, hstate,
      htrace, List.append_assoc, List.singleton_append]
    exact ⟨rfl, rfl⟩

/-- The line of a frame begins with a character that is read as such, and goes on as a line. -/
theorem exists_line (hf : f.Plain) : ∃ c l, f.line = c :: l ∧ c ≠ Char.ofNat 0xFEFF
    ∧ c ≠ '\n' ∧ c ≠ '\r' ∧ '\n' ∉ l ∧ '\r' ∉ l := by
  cases f with
  | data text =>
    refine ⟨'d', "ata: ".toList ++ text, rfl, by decide, by decide, by decide, ?_, ?_⟩
    · exact fun h => (List.mem_append.mp h).elim (by decide) hf.1
    · exact fun h => (List.mem_append.mp h).elim (by decide) hf.2
  | comment text => exact ⟨':', text, rfl, by decide, by decide, by decide, hf.1, hf.2⟩

/-- **The line of a frame**, up to its end. -/
theorem characters_frame_line (hf : f.Plain) (hr : r.Idle) :
    characters.state r f.line = { r with fresh := false, line := f.line }
      ∧ characters.trace r f.line = [] := by
  obtain ⟨c, l, heq, hmark, hn, hr', hnl, hrl⟩ := exists_line hf
  have hread : characters.step r c = ({ r with fresh := false, line := [c] }, []) := by
    show r.read c = _
    rw [read_of_ne (fun _ => hmark) hn hr', hr.line, hr.afterReturn]
    rfl
  obtain ⟨hstate, htrace⟩ :=
    characters_line hnl hrl { r with fresh := false, line := [c] } rfl hr.afterReturn
  rw [heq, Machine.state_cons, Machine.trace_cons, show characters.next r c = _ from
    congrArg Prod.fst hread, show characters.emits r c = _ from congrArg Prod.snd hread, hstate,
    htrace]
  exact ⟨rfl, rfl⟩

/-- What the line of a frame sets, and what the empty line behind it dispatches. -/
theorem endLine_frame (f : Frame) (hr : r.Idle) :
    ∃ s, { r with fresh := false, line := f.line }.endLine = (s, []) ∧ s.afterReturn = false
      ∧ s.line = [] ∧ { s with fresh := false, afterReturn := false }.endLine
        = ({ r with fresh := false }, f.messages r.lastEventId) := by
  obtain ⟨fresh, afterReturn, line, event, data, id⟩ := r
  obtain ⟨rfl, rfl, rfl, rfl⟩ := hr
  cases f with
  | data text =>
    refine ⟨⟨false, false, [], [], text ++ ['\n'], id⟩, rfl, rfl, rfl, ?_⟩
    unfold Reader.endLine Reader.dispatch Frame.messages
    dsimp only
    rw [if_pos rfl, if_neg (by simp), if_pos rfl, List.dropLast_concat]
  | comment text => exact ⟨⟨false, false, [], [], [], id⟩, rfl, rfl, rfl, rfl⟩

/-- **A frame is read to its messages**, and up to its last character to none. -/
theorem characters_frame (hf : f.Plain) (hr : r.Idle) :
    characters.state r f.text = { r with fresh := false }
      ∧ characters.trace r f.text = f.messages r.lastEventId
      ∧ characters.trace r (f.line ++ ['\n']) = [] := by
  obtain ⟨hstate, htrace⟩ := characters_frame_line hf hr
  obtain ⟨s, hend, hreturn, hline, hdispatch⟩ := endLine_frame f hr
  have hfirst : characters.step { r with fresh := false, line := f.line } '\n' = (s, []) := by
    have hread := read_newline (r := { r with fresh := false, line := f.line }) hr.afterReturn
    dsimp only at hread hend
    rw [hr.afterReturn] at hread hend ⊢
    exact hread.trans hend
  have hsecond : characters.step s '\n' = ({ r with fresh := false }, f.messages r.lastEventId) :=
    (read_newline hreturn).trans hdispatch
  have hsplit : f.text = (f.line ++ ['\n']) ++ ['\n'] := by
    unfold Frame.text
    rw [List.append_assoc]
    rfl
  have hbefore : characters.state r (f.line ++ ['\n']) = s
      ∧ characters.trace r (f.line ++ ['\n']) = [] := by
    rw [Machine.state_concat, Machine.trace_concat, hstate, htrace]
    exact ⟨congrArg Prod.fst hfirst, congrArg Prod.snd hfirst⟩
  rw [hsplit, Machine.state_concat, Machine.trace_concat, hbefore.1, hbefore.2]
  exact ⟨congrArg Prod.fst hsecond, congrArg Prod.snd hsecond, rfl⟩

/-! ## Octets -/

theorem octets_eq (f : Frame) : f.octets = Utf8.encode (f.line ++ ['\n']) ++ [0x0A] := by
  unfold Frame.octets Frame.text
  rw [show f.line ++ ['\n', '\n'] = (f.line ++ ['\n']) ++ ['\n'] by rw [List.append_assoc]; rfl,
    Utf8.encode_append]
  rfl

def Idle (s : Utf8.State × Reader) : Prop := s.1 = .start ∧ s.2.Idle

theorem idle_initial : Idle initial := ⟨rfl, rfl, rfl, rfl, rfl⟩

variable {s : Utf8.State × Reader}

/-- **A whole frame.** -/
theorem stream_frame (hf : f.Plain) (hs : Idle s) :
    Idle (stream.state s f.octets)
      ∧ (stream.state s f.octets).2.lastEventId = s.2.lastEventId
      ∧ stream.trace s f.octets = f.messages s.2.lastEventId := by
  obtain ⟨hstart, hr⟩ := hs
  obtain ⟨hdecoder, htext⟩ := Utf8.decoder_encode f.text
  obtain ⟨hstate, htrace, -⟩ := characters_frame hf hr
  unfold stream Idle
  rw [Machine.state_pipe, Machine.trace_pipe, hstart, Frame.octets, hdecoder, htext, hstate, htrace]
  exact ⟨⟨rfl, hr.afterReturn, hr.line, hr.event, hr.data⟩, rfl, rfl⟩

/-- **A frame that is not whole** says nothing. -/
theorem stream_part (hf : f.Plain) (hs : Idle s) {l : List ℕ} (hl : l <+: f.octets)
    (hlt : l.length < f.octets.length) : stream.trace s l = [] := by
  obtain ⟨hstart, hr⟩ := hs
  have hpre : l <+: Utf8.encode (f.line ++ ['\n']) := by
    rw [octets_eq] at hl hlt
    obtain heq | hlt' := List.prefix_concat_iff.mp hl
    · rw [heq] at hlt
      exact absurd hlt (lt_irrefl _)
    · exact hlt'
  have htext := (Utf8.decoder.trace_prefix .start hpre)
  rw [(Utf8.decoder_encode _).2] at htext
  unfold stream
  rw [Machine.trace_pipe, hstart]
  exact characters.trace_eq_nil_of_prefix s.2 htext (characters_frame hf hr).2.2

/-- **A stream of frames is read to the messages of the frames that have arrived whole**,
wherever the octets stop. -/
theorem trace_frames {fs : List Frame} (hfs : ∀ f ∈ fs, f.Plain) :
    ∀ {s : Utf8.State × Reader}, Idle s → ∀ {l : List ℕ}, l <+: fs.flatMap Frame.octets →
      stream.trace s l = (Frame.whole fs l.length).flatMap (Frame.messages s.2.lastEventId) := by
  induction fs with
  | nil =>
    intro s _ l hl
    rw [List.prefix_nil.mp hl]
    rfl
  | cons f fs ih =>
    intro s hs l hl
    have hf := hfs f List.mem_cons_self
    rw [List.flatMap_cons] at hl
    unfold Frame.whole
    split
    · next hle =>
      -- the frame is whole, and the rest is read behind it
      obtain ⟨l', rfl⟩ : f.octets <+: l :=
        List.prefix_of_prefix_length_le (List.prefix_append _ _) hl hle
      obtain ⟨hidle, hid, htrace⟩ := stream_frame hf hs
      rw [Machine.trace_append, htrace, ih (fun f hf => hfs f (List.mem_cons_of_mem _ hf)) hidle
        ((List.prefix_append_right_inj _).mp hl), hid, List.length_append, Nat.add_sub_cancel_left,
        List.flatMap_cons]
    · next hlt =>
      have hpre : l <+: f.octets :=
        List.prefix_of_prefix_length_le hl (List.prefix_append _ _) (Nat.le_of_lt (not_le.mp hlt))
      rw [stream_part hf hs hpre (not_le.mp hlt)]
      rfl

/-- **How many frames are whole**: as many as the octets hold, and no more. -/
theorem exists_whole (fs : List Frame) : ∀ n : ℕ, ∃ k, Frame.whole fs n = fs.take k
    ∧ ((fs.take k).flatMap Frame.octets).length ≤ n
    ∧ (k < fs.length → n < ((fs.take (k + 1)).flatMap Frame.octets).length) := by
  induction fs with
  | nil => exact fun n => ⟨0, rfl, Nat.zero_le _, fun hk => absurd hk (Nat.lt_irrefl _)⟩
  | cons f fs ih =>
    intro n
    unfold Frame.whole
    split
    · next hle =>
      obtain ⟨k, hwhole, hlength, hmore⟩ := ih (n - f.octets.length)
      refine ⟨k + 1, by rw [hwhole, List.take_succ_cons], ?_, fun hk => ?_⟩
      · rw [List.take_succ_cons, List.flatMap_cons, List.length_append]
        omega
      · have := hmore (Nat.lt_of_succ_lt_succ hk)
        rw [List.take_succ_cons, List.flatMap_cons, List.length_append]
        omega
    · next hlt =>
      refine ⟨0, rfl, Nat.zero_le _, fun _ => ?_⟩
      rw [List.take_succ_cons, List.take_zero, List.flatMap_cons, List.flatMap_nil, List.append_nil]
      exact not_le.mp hlt

end EventSource
