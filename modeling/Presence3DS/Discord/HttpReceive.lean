import Presence3DS.Lib.Buffer
import Presence3DS.Lib.CString

/-! The loop of `discord_http_post` that receives the response of the server. -/

namespace Presence3DS.Discord
open Buffer CString

/-- `RECV_TIMEOUT_NS` -/
def recvTimeoutNs : ℕ := 3 * 1000 * 1000 * 1000

/-- `RECV_POLL_SLICE_MS` -/
def recvPollSliceMs : ℕ := 500

def maxIdleSlices : ℕ := recvTimeoutNs / (recvPollSliceMs * 1000)

/-- What the socket does when it is polled: the poll fails, a slice passes in silence, the other end
closes (or nothing is received), or there are data. -/
inductive PollOutcome where
  | failed
  | silent
  | closed
  | data (c : UInt8) (cs : Bytes)
deriving DecidableEq

def PollOutcome.bytes : PollOutcome → Bytes
  | .data c cs => c :: cs
  | _ => []

/-- The variables of the loop, and the value of `ret` where it has ended. -/
structure HttpReceive where
  response : Bytes
  totalReceived : ℕ
  idleSlices : ℕ
  ended : Option Int
deriving DecidableEq

namespace HttpReceive

/-- What is behind the loop. -/
def finish (s : HttpReceive) : HttpReceive :=
  if 0 < s.totalReceived then
    { s with response := s.response.set s.totalReceived 0, ended := some 0 }
  else { s with ended := some (-1) }

/-- The condition of the loop. -/
def check (respSize : ℕ) (s : HttpReceive) : HttpReceive :=
  if s.totalReceived < respSize - 1 then s else s.finish

def start (response : Bytes) : HttpReceive := check response.length ⟨response, 0, 0, none⟩

/-- One pass of the loop. -/
def pass (respSize : ℕ) (s : HttpReceive) : PollOutcome → HttpReceive
  | .failed => { s with ended := some (-1) }
  | .silent =>
    if maxIdleSlices ≤ s.idleSlices + 1 then
      { s with idleSlices := s.idleSlices + 1, ended := some (-1) }
    else { s with idleSlices := s.idleSlices + 1 }
  | .closed => s.finish
  | .data c cs =>
    let bytes := (c :: cs).take (respSize - 1 - s.totalReceived)
    check respSize { s with
      response := splice s.response s.totalReceived bytes
      totalReceived := s.totalReceived + bytes.length
      idleSlices := 0 }

/-- The socket is not polled any more behind the loop. -/
def step (respSize : ℕ) (s : HttpReceive) (o : PollOutcome) : HttpReceive :=
  if s.ended = none then s.pass respSize o else s

/-- The loop, on the buffer of the caller. -/
def run (response : Bytes) (outcomes : List PollOutcome) : HttpReceive :=
  outcomes.foldl (step response.length) (start response)

theorem run_concat (response : Bytes) (outcomes : List PollOutcome) (o : PollOutcome) :
    run response (outcomes ++ [o]) = (run response outcomes).step response.length o := by
  rw [run, List.foldl_append]
  rfl

end HttpReceive

/-! ## What the socket did -/

/-- The bytes that are received into a buffer. -/
def receivedBytes (response : Bytes) (outcomes : List PollOutcome) : Bytes :=
  (outcomes.flatMap PollOutcome.bytes).take (response.length - 1)

/-- The slices that have passed since the last byte. -/
def silentSlices (outcomes : List PollOutcome) : ℕ := (outcomes.rtakeWhile (· = .silent)).length

/-- The time that has been polled in silence since the last byte, in nanoseconds. -/
def silentNs (outcomes : List PollOutcome) : ℕ := silentSlices outcomes * recvPollSliceMs * 1000000

theorem receivedBytes_concat (response : Bytes) (outcomes : List PollOutcome) (o : PollOutcome) :
    receivedBytes response (outcomes ++ [o]) = receivedBytes response outcomes ++
      o.bytes.take (response.length - 1 - (receivedBytes response outcomes).length) := by
  unfold receivedBytes
  rw [List.flatMap_append, List.flatMap_singleton, List.take_append, List.length_take]
  congr 2
  omega

theorem silentSlices_concat_silent (outcomes : List PollOutcome) :
    silentSlices (outcomes ++ [.silent]) = silentSlices outcomes + 1 := by
  unfold silentSlices
  rw [List.rtakeWhile_concat_pos _ _ _ (by decide), List.length_append, List.length_singleton]

theorem silentSlices_concat_data (outcomes : List PollOutcome) (c : UInt8) (cs : Bytes) :
    silentSlices (outcomes ++ [.data c cs]) = 0 := by
  unfold silentSlices
  rw [List.rtakeWhile_concat_neg _ _ _ (by simp), List.length_nil]

theorem exists_silentSlices_iff (n : ℕ) (outcomes : List PollOutcome) :
    (∃ pre, pre <+: outcomes ∧ n ≤ silentSlices pre) ↔ List.replicate n .silent <:+: outcomes := by
  constructor
  · rintro ⟨pre, hpre, hn⟩
    have hall : pre.rtakeWhile (· = .silent) =
        List.replicate (silentSlices pre) PollOutcome.silent := by
      apply List.eq_replicate_of_mem
      intro o ho
      simpa using List.mem_rtakeWhile_imp ho
    have hsuffix : List.replicate (silentSlices pre) PollOutcome.silent <:+ pre :=
      hall ▸ List.rtakeWhile_suffix _ _
    have hpart : List.replicate n PollOutcome.silent <+:
        List.replicate (silentSlices pre) PollOutcome.silent :=
      ⟨List.replicate (silentSlices pre - n) .silent, by
        rw [List.replicate_append_replicate, Nat.add_sub_of_le hn]⟩
    exact (hpart.isInfix.trans hsuffix.isInfix).trans hpre.isInfix
  · rintro ⟨s, t, rfl⟩
    refine ⟨s ++ List.replicate n .silent, List.prefix_append _ _, ?_⟩
    clear t
    induction n with
    | zero => exact Nat.zero_le _
    | succ n ih =>
      rw [List.replicate_succ', ← List.append_assoc, silentSlices_concat_silent]
      exact Nat.succ_le_succ ih

/-! ## While the loop polls -/

namespace HttpReceive

/-- The loop's variables before a poll: they say what has been received and how long the socket has
been silent, and the buffer behind the received bytes is as the caller left it. -/
structure Polling (response : Bytes) (outcomes : List PollOutcome) (s : HttpReceive) : Prop where
  ended : s.ended = none
  total : s.totalReceived = (receivedBytes response outcomes).length
  room : s.totalReceived < response.length - 1
  buffer : s.response = receivedBytes response outcomes ++ response.drop s.totalReceived
  idle : s.idleSlices = silentSlices outcomes
  idle_lt : s.idleSlices < maxIdleSlices
  count : outcomes.length ≤ s.totalReceived * maxIdleSlices + s.idleSlices

variable {response : Bytes} {outcomes : List PollOutcome} {s : HttpReceive}

theorem ended_finish (s : HttpReceive) : s.finish.ended ≠ none := by
  unfold finish
  split_ifs
  · exact Option.some_ne_none _
  · exact Option.some_ne_none _

theorem check_of_ended_none {size : ℕ} (h : (check size s).ended = none) :
    s.totalReceived < size - 1 ∧ check size s = s := by
  unfold check at h ⊢
  split_ifs at h ⊢ with hroom
  · exact ⟨hroom, rfl⟩
  · exact absurd h (ended_finish s)

theorem receivedBytes_nil (response : Bytes) : receivedBytes response [] = [] := List.take_nil

theorem polling_start (h : (start response).ended = none) :
    Polling response [] (start response) := by
  obtain ⟨hroom, hstart⟩ := check_of_ended_none h
  have hstart : start response = ⟨response, 0, 0, none⟩ := hstart
  rw [hstart]
  refine ⟨rfl, ?_, hroom, ?_, rfl, show 0 < maxIdleSlices by decide, Nat.zero_le _⟩
  · rw [receivedBytes_nil]
    rfl
  · rw [receivedBytes_nil]
    rfl

/-- What a poll that has data does before the condition of the loop is seen again. -/
def afterData (respSize : ℕ) (s : HttpReceive) (c : UInt8) (cs : Bytes) : HttpReceive :=
  { s with
    response := splice s.response s.totalReceived
      ((c :: cs).take (respSize - 1 - s.totalReceived))
    totalReceived := s.totalReceived + ((c :: cs).take (respSize - 1 - s.totalReceived)).length
    idleSlices := 0 }

theorem pass_data (respSize : ℕ) (s : HttpReceive) (c : UInt8) (cs : Bytes) :
    s.pass respSize (.data c cs) = check respSize (s.afterData respSize c cs) := rfl

theorem Polling.received_data (h : Polling response outcomes s) (c : UInt8) (cs : Bytes) :
    receivedBytes response (outcomes ++ [.data c cs]) =
      receivedBytes response outcomes ++
        (c :: cs).take (response.length - 1 - s.totalReceived) := by
  rw [receivedBytes_concat, ← h.total]
  rfl

theorem Polling.total_afterData (h : Polling response outcomes s) (c : UInt8) (cs : Bytes) :
    (s.afterData response.length c cs).totalReceived =
      (receivedBytes response (outcomes ++ [.data c cs])).length := by
  rw [h.received_data, List.length_append, ← h.total]
  rfl

theorem Polling.lt_afterData (h : Polling response outcomes s) (c : UInt8) (cs : Bytes) :
    s.totalReceived < (s.afterData response.length c cs).totalReceived := by
  have hroom := h.room
  apply Nat.lt_add_of_pos_right
  rw [List.length_take, List.length_cons]
  omega

theorem Polling.buffer_afterData (h : Polling response outcomes s) (c : UInt8) (cs : Bytes) :
    (s.afterData response.length c cs).response =
      receivedBytes response (outcomes ++ [.data c cs]) ++
        response.drop (s.afterData response.length c cs).totalReceived := by
  show splice s.response s.totalReceived _ = _
  rw [h.received_data, h.buffer, h.total, splice_append, List.drop_drop, ← h.total]
  rfl

theorem polling_run (h : (run response outcomes).ended = none) :
    Polling response outcomes (run response outcomes) := by
  induction outcomes using List.reverseRecOn with
  | nil => exact polling_start h
  | append_singleton outcomes o ih =>
    rw [run_concat, step] at h ⊢
    by_cases hbefore : (run response outcomes).ended = none
    · rw [if_pos hbefore] at h ⊢
      have hpolling := ih hbefore
      have hcount := hpolling.count
      have hidle_lt := hpolling.idle_lt
      cases o with
      | failed => cases h
      | silent =>
        unfold pass at h ⊢
        dsimp only at h ⊢
        split_ifs at h ⊢ with hidle
        have hreceived : receivedBytes response (outcomes ++ [.silent]) =
            receivedBytes response outcomes := by
          rw [receivedBytes_concat]
          exact (congrArg _ List.take_nil).trans (List.append_nil _)
        refine ⟨h, ?_, hpolling.room, ?_, ?_, Nat.not_le.mp hidle, ?_⟩
        · rw [hreceived]
          exact hpolling.total
        · rw [hreceived]
          exact hpolling.buffer
        · rw [silentSlices_concat_silent, ← hpolling.idle]
        · rw [List.length_append, List.length_singleton]
          exact Nat.succ_le_succ hcount
      | closed => exact absurd h (ended_finish _)
      | data c cs =>
        rw [pass_data] at h ⊢
        obtain ⟨hroom, hsame⟩ := check_of_ended_none h
        rw [hsame] at h ⊢
        refine ⟨h, hpolling.total_afterData c cs, hroom, hpolling.buffer_afterData c cs,
          (silentSlices_concat_data outcomes c cs).symm, show 0 < maxIdleSlices by decide, ?_⟩
        have hmore := Nat.mul_le_mul_right maxIdleSlices
          (Nat.succ_le_of_lt (hpolling.lt_afterData c cs))
        rw [Nat.succ_mul] at hmore
        rw [List.length_append, List.length_singleton]
        omega
    · rw [if_neg hbefore] at h
      exact absurd h hbefore

/-! ## The end of the loop -/

/-- The outcomes of a whole run: the loop makes each of these polls, and then no other. -/
structure CompleteRun (response : Bytes) (outcomes : List PollOutcome) : Prop where
  polls : ∀ pre, pre <+: outcomes → pre ≠ outcomes → (run response pre).ended = none
  ends : (run response outcomes).ended ≠ none

/-- The loop gives up before it has been silent for longer than the timeout. -/
def GivesUp (response : Bytes) (outcomes : List PollOutcome) : Prop :=
  ∀ pre, pre <+: outcomes → recvTimeoutNs < silentNs pre →
    ∃ q, q <+: pre ∧ q ≠ pre ∧ (run response q).ended ≠ none

/-- The buffer holds some of the received bytes, from the first on, with their terminator. -/
def Terminated (response : Bytes) (outcomes : List PollOutcome) : Prop :=
  (run response outcomes).response.length = response.length ∧
    ∃ kept rest, (run response outcomes).response = kept ++ 0 :: rest ∧
      kept <+: receivedBytes response outcomes

theorem givesUp_iff (h : CompleteRun response outcomes) :
    GivesUp response outcomes ↔ ¬List.replicate 7 .silent <:+: outcomes := by
  have hsilent : ∀ pre, recvTimeoutNs < silentNs pre ↔ 7 ≤ silentSlices pre := by
    intro pre
    unfold silentNs recvTimeoutNs recvPollSliceMs
    omega
  rw [← exists_silentSlices_iff]
  constructor
  · rintro hgives ⟨pre, hpre, hlong⟩
    obtain ⟨q, hq, hne, hended⟩ := hgives pre hpre ((hsilent pre).mpr hlong)
    refine hended (h.polls q (hq.trans hpre) ?_)
    rintro rfl
    exact hne (hq.eq_of_length_le hpre.length_le)
  · intro hnone pre hpre hlong
    exact absurd ⟨pre, hpre, (hsilent pre).mp hlong⟩ hnone

theorem exists_terminated_iff (front back : Bytes) :
    (∃ kept rest, front ++ back = kept ++ 0 :: rest ∧ kept <+: front) ↔
      0 ∈ front ∨ back.head? = some 0 := by
  constructor
  · rintro ⟨kept, rest, hbuffer, more, rfl⟩
    rw [List.append_assoc] at hbuffer
    have hrest := List.append_cancel_left hbuffer
    cases more with
    | nil =>
      right
      rw [show back = 0 :: rest from hrest]
      rfl
    | cons c more =>
      left
      obtain ⟨rfl, -⟩ := List.cons_eq_cons.mp hrest
      simp
  · rintro (hmem | hhead)
    · obtain ⟨kept, rest, rfl⟩ := List.append_of_mem hmem
      exact ⟨kept, rest ++ back, by simp, List.prefix_append _ _⟩
    · obtain ⟨rest, rfl⟩ : ∃ rest, back = 0 :: rest := by
        cases back with
        | nil => cases hhead
        | cons c rest => exact ⟨rest, by rw [Option.some.inj hhead]⟩
      exact ⟨front, rest, rfl, List.prefix_rfl⟩

theorem length_receivedBytes_le (response : Bytes) (outcomes : List PollOutcome) :
    (receivedBytes response outcomes).length ≤ response.length - 1 := List.length_take_le _ _

/-- What has been received is in the front of the buffer. -/
structure Stored (response received : Bytes) (s : HttpReceive) : Prop where
  total : s.totalReceived = received.length
  room : received.length < response.length
  buffer : s.response = received ++ response.drop received.length

theorem Stored.length {received : Bytes} (h : Stored response received s) :
    s.response.length = response.length := by
  have hroom := h.room
  rw [h.buffer, List.length_append, List.length_drop]
  omega

theorem Stored.terminated_iff {received : Bytes} (h : Stored response received s) :
    (∃ kept rest, s.response = kept ++ 0 :: rest ∧ kept <+: received) ↔
      0 ∈ received ∨ response[received.length]? = some 0 := by
  rw [h.buffer, exists_terminated_iff, List.head?_drop]

theorem Stored.finish_iff {received : Bytes} (h : Stored response received s) :
    s.finish.response.length = response.length ∧
      ((∃ kept rest, s.finish.response = kept ++ 0 :: rest ∧ kept <+: received) ↔
        (received = [] → 0 ∈ received ∨ response[received.length]? = some 0)) := by
  have htotal := h.total
  unfold finish
  split_ifs with hsome
  · have hne : received ≠ [] := List.ne_nil_of_length_pos (htotal ▸ hsome)
    refine ⟨(List.length_set ..).trans h.length, ⟨fun _ hnil => absurd hnil hne, fun _ => ?_⟩⟩
    refine ⟨received, s.response.drop (s.totalReceived + 1), ?_, List.prefix_rfl⟩
    show s.response.set s.totalReceived 0 = _
    have hlt : s.totalReceived < s.response.length := by
      rw [htotal, h.length]
      exact h.room
    rw [List.set_eq_take_append_cons_drop, if_pos hlt, htotal, h.buffer, List.take_left]
  · have hnil : received = [] := List.eq_nil_of_length_eq_zero (by omega)
    exact ⟨h.length, h.terminated_iff.trans ⟨fun hend _ => hend, fun hend => hend hnil⟩⟩

theorem Polling.stored (h : Polling response outcomes s) :
    Stored response (receivedBytes response outcomes) s := by
  have hroom := h.room
  exact ⟨h.total, by rw [← h.total]; omega, by rw [← h.total]; exact h.buffer⟩

theorem check_of_ended {size : ℕ} (hs : s.ended = none) (h : (check size s).ended ≠ none) :
    check size s = s.finish := by
  unfold check at h ⊢
  split_ifs at h ⊢ with hroom
  · exact absurd hs h
  · rfl

theorem terminated_iff (hsize : 0 < response.length) (h : CompleteRun response outcomes)
    (hshort : silentSlices outcomes < maxIdleSlices) :
    Terminated response outcomes ↔
      (outcomes.getLast? = some .failed ∨ receivedBytes response outcomes = [] →
        0 ∈ receivedBytes response outcomes ∨
          response[(receivedBytes response outcomes).length]? = some 0) := by
  have hends := h.ends
  unfold Terminated
  rcases List.eq_nil_or_concat' outcomes with rfl | ⟨pre, o, rfl⟩
  · -- a buffer of one byte, for which the loop polls nothing
    have hstored : Stored response [] ⟨response, 0, 0, none⟩ := ⟨rfl, hsize, rfl⟩
    have hfinish : run response [] = finish ⟨response, 0, 0, none⟩ := check_of_ended rfl hends
    obtain ⟨hlength, hiff⟩ := hstored.finish_iff
    rw [hfinish, receivedBytes_nil, and_iff_right hlength, hiff, List.getLast?_nil]
    simp only [reduceCtorEq, false_or]
  · have hpolling := polling_run (h.polls pre (List.prefix_append _ _) (by simp))
    have hrun : run response (pre ++ [o]) = (run response pre).pass response.length o := by
      rw [run_concat, step, if_pos hpolling.ended]
    have hnothing : o.bytes = [] →
        receivedBytes response (pre ++ [o]) = receivedBytes response pre := by
      intro hnil
      rw [receivedBytes_concat, hnil, List.take_nil, List.append_nil]
    rw [hrun] at hends ⊢
    rw [List.getLast?_concat]
    cases o with
    | failed =>
      rw [hnothing rfl]
      have hlength := hpolling.stored.length
      have hiff := hpolling.stored.terminated_iff
      show (run response pre).response.length = _ ∧ (∃ kept rest, (run response pre).response = _ ∧
        _) ↔ _
      rw [and_iff_right hlength, hiff]
      exact ⟨fun hend _ => hend, fun hend => hend (Or.inl rfl)⟩
    | silent =>
      -- the loop has given up after a silence that is not a short one
      have hlong : maxIdleSlices ≤ (run response pre).idleSlices + 1 := by
        unfold pass at hends
        dsimp only at hends
        split_ifs at hends with hlong
        · exact hlong
        · exact absurd hpolling.ended hends
      rw [silentSlices_concat_silent, ← hpolling.idle] at hshort
      exact absurd hlong (Nat.not_le.mpr hshort)
    | closed =>
      rw [hnothing rfl]
      obtain ⟨hlength, hiff⟩ := hpolling.stored.finish_iff
      show (run response pre).finish.response.length = _ ∧
        (∃ kept rest, (run response pre).finish.response = _ ∧ _) ↔ _
      rw [and_iff_right hlength, hiff]
      simp
    | data c cs =>
      have htotal := hpolling.total_afterData c cs
      have hstored : Stored response (receivedBytes response (pre ++ [.data c cs]))
          ((run response pre).afterData response.length c cs) := by
        have hle := length_receivedBytes_le response (pre ++ [.data c cs])
        refine ⟨htotal, by omega, ?_⟩
        rw [← htotal]
        exact hpolling.buffer_afterData c cs
      rw [pass_data] at hends ⊢
      have hnone : ((run response pre).afterData response.length c cs).ended = none :=
        hpolling.ended
      rw [check_of_ended hnone hends]
      obtain ⟨hlength, hiff⟩ := hstored.finish_iff
      rw [and_iff_right hlength, hiff]
      simp

/-- When the loop gives up in time and leaves a terminated response: where the server is never
silent for more than six slices, and, unless the loop ends with some data and without a failed poll,
there is a NUL among the received bytes, or the caller left one behind them. -/
theorem receive_iff (hsize : 0 < response.length) (h : CompleteRun response outcomes) :
    GivesUp response outcomes ∧ Terminated response outcomes ↔
      ¬List.replicate 7 .silent <:+: outcomes ∧
        (outcomes.getLast? = some .failed ∨ receivedBytes response outcomes = [] →
          0 ∈ receivedBytes response outcomes ∨
            response[(receivedBytes response outcomes).length]? = some 0) := by
  rw [givesUp_iff h]
  apply and_congr_right
  intro hquiet
  apply terminated_iff hsize h
  have hshort : ¬7 ≤ silentSlices outcomes := fun hlong =>
    hquiet ((exists_silentSlices_iff 7 outcomes).mp ⟨outcomes, List.prefix_rfl, hlong⟩)
  exact (Nat.not_le.mp hshort).trans (by decide)

theorem completeRun_of_take
    (h : ∀ k < outcomes.length, (run response (outcomes.take k)).ended = none)
    (hends : (run response outcomes).ended ≠ none) : CompleteRun response outcomes := by
  refine ⟨fun pre hpre hne => ?_, hends⟩
  have hlt : pre.length < outcomes.length :=
    Nat.lt_of_le_of_ne hpre.length_le fun heq => hne (hpre.eq_of_length heq)
  rw [List.prefix_iff_eq_take.mp hpre]
  exact h pre.length hlt

/-- An answer of two bytes after a slice of silence. -/
def shortAnswer : List PollOutcome := [.silent, .data 1 [2]]

theorem receive_iff_answer : GivesUp [9, 9, 9] shortAnswer ∧ Terminated [9, 9, 9] shortAnswer := by
  have hrun : CompleteRun [9, 9, 9] shortAnswer := completeRun_of_take (by decide) (by decide)
  exact (receive_iff (by decide) hrun).mpr (by decide)

/-- After three and a half seconds of silence the loop still receives what comes. -/
theorem silent_server_is_waited_for :
    CompleteRun [9, 9, 9] (List.replicate 7 .silent ++ [.data 1 [2]]) ∧
      ¬GivesUp [9, 9, 9] (List.replicate 7 .silent ++ [.data 1 [2]]) := by
  have hrun : CompleteRun [9, 9, 9] (List.replicate 7 .silent ++ [.data 1 [2]]) :=
    completeRun_of_take (by decide) (by decide)
  refine ⟨hrun, fun hgives => ?_⟩
  obtain ⟨q, hq, hne, hended⟩ := hgives (List.replicate 7 .silent) (List.prefix_append _ _)
    (by decide)
  refine hended (hrun.polls q (hq.trans (List.prefix_append _ _)) ?_)
  rintro rfl
  exact absurd hq.length_le (by decide)

end HttpReceive

end Presence3DS.Discord
