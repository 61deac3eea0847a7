import NetTester.Delivery

namespace NetTester

/-- The first byte of the receive buffer once chunks were written to its start. -/
def frontByte (chunks : List (List UInt8)) : UInt8 :=
  chunks.foldl (fun byte chunk => chunk.headD byte) 0

/-- The chunks that a mode of verification finds a mismatch in. Each mode expects at its position
`p` of the stream the byte `p` modulo 256; the first mode reads the first byte of the buffer for
every chunk, which an empty one has not written. -/
def Mismatched (verify : Verify) (chunks : List (List UInt8)) : Prop :=
  match verify with
  | .none => False
  | .first => ∃ before chunk after, chunks = before ++ chunk :: after ∧
      frontByte (before ++ [chunk]) ≠ UInt8.ofNat before.flatten.length
  | .all => ∃ p < chunks.flatten.length, chunks.flatten[p]? ≠ some (UInt8.ofNat p)

/-- What verification has made of the chunks that were handled. -/
structure Verified (verify : Verify) (chunks : List (List UInt8)) (v : ReceiveView)
    (aborts : List ErrorCode) : Prop where
  counter : v.received.value = chunks.flatten.length % 2 ^ 64
  reported : .tester .dataMismatch ∈ aborts ↔ Mismatched verify chunks

variable {verify : Verify} {chunks : List (List UInt8)} {chunk : List UInt8}

theorem mismatched_first_concat : Mismatched .first (chunks ++ [chunk]) ↔
    Mismatched .first chunks ∨
      frontByte (chunks ++ [chunk]) ≠ UInt8.ofNat chunks.flatten.length := by
  constructor
  · rintro ⟨before, other, after, split, bad⟩
    rcases List.eq_nil_or_concat after with rfl | ⟨after, last, rfl⟩
    · obtain ⟨rfl, last⟩ := List.append_inj' split rfl
      obtain rfl := List.singleton_inj.mp last
      exact .inr bad
    · have split : chunks ++ [chunk] = (before ++ other :: after) ++ [last] := by
        simp [split]
      exact .inl ⟨before, other, after, (List.append_inj' split rfl).1, bad⟩
  · rintro (⟨before, other, after, rfl, bad⟩ | bad)
    · exact ⟨before, other, after ++ [chunk], by simp, bad⟩
    · exact ⟨chunks, chunk, [], rfl, bad⟩

theorem mismatched_all_concat : Mismatched .all (chunks ++ [chunk]) ↔
    Mismatched .all chunks ∨
      ∃ i < chunk.length, chunk[i]? ≠ some (UInt8.ofNat (chunks.flatten.length + i)) := by
  simp only [Mismatched, List.flatten_append, List.flatten_singleton, List.length_append]
  constructor
  · rintro ⟨p, bound, bad⟩
    rcases Nat.lt_or_ge p chunks.flatten.length with lt | ge
    · rw [List.getElem?_append_left lt] at bad
      exact .inl ⟨p, lt, bad⟩
    · rw [List.getElem?_append_right ge] at bad
      refine .inr ⟨p - chunks.flatten.length, by omega, ?_⟩
      rwa [Nat.add_sub_cancel' ge]
  · rintro (⟨p, lt, bad⟩ | ⟨i, lt, bad⟩)
    · exact ⟨p, by omega, by rwa [List.getElem?_append_left lt]⟩
    · refine ⟨chunks.flatten.length + i, by omega, ?_⟩
      rwa [List.getElem?_append_right (by omega), Nat.add_sub_cancel_left]

/-- The reports about the next chunk are about its own bytes. -/
theorem Verified.mismatches {v : ReceiveView} {aborts : List ErrorCode}
    (h : Verified verify chunks v aborts) {n : Nat}
    (front : verify = .first →
      v.buffer 0 = frontByte (chunks ++ [(List.range n).map v.buffer])) :
    Mismatched verify (chunks ++ [(List.range n).map v.buffer]) ↔
      Mismatched verify chunks ∨ v.mismatches verify n ≠ 0 := by
  cases verify with
  | none => simp [Mismatched, ReceiveView.mismatches]
  | first =>
    have expected := expected_byte h.counter 0
    simp only [show UInt8.ofNat 0 = 0 from rfl, UInt8.add_zero, Nat.add_zero] at expected
    rw [mismatched_first_concat, ← front rfl, ← expected]
    apply or_congr_right
    simp [ReceiveView.mismatches]
  | all =>
    rw [mismatched_all_concat, ne_eq, mismatches_all_eq_zero h.counter]
    apply or_congr_right
    simp only [not_forall]
    refine exists_congr fun i => ?_
    simp only [List.length_map, List.length_range, exists_prop]
    refine and_congr_right fun lt => ?_
    simp [lt]

/-- Verification and counting of one chunk. -/
theorem Verified.count {v w : ReceiveView} {r r' : Report} (h : Verified verify chunks v r.aborts)
    {n : Nat} (front : verify = .first →
      v.buffer 0 = frontByte (chunks ++ [(List.range n).map v.buffer]))
    (received : w.received = v.received.add n)
    (report : r' = (Report.abort (.tester .dataMismatch))^[v.mismatches verify n] r) :
    Verified verify (chunks ++ [(List.range n).map v.buffer]) w r'.aborts := by
  refine ⟨?_, ?_⟩
  · rw [received, Size.add_value, h.counter]
    simp
  · rw [h.mismatches front, ← h.reported, report, Report.abort_iterate]
    split
    next none => simp [none]
    next some => simp [some]

namespace Session

/-- What `on_receive` does with a chunk, up to the operation it starts. -/
theorem onReceive_ok {s : Session} (receives : s.receives = []) (n slice : Nat) :
    (s.onReceive (.ok n) slice).receiveView.received = s.receiveView.received.add n ∧
      (s.onReceive (.ok n) slice).report = (Report.abort (.tester .dataMismatch))^[
        s.receiveView.mismatches s.configuration.verify n] s.report := by
  have view := countReceived_receiveView s n
  have received := congrArg ReceiveView.received view
  have report : ((s.verify n).countReceived n).report = _ := verify_report s n
  simp only [onReceive]
  split
  next =>
    refine ⟨?_, (asyncReceive_report _ _).trans report⟩
    rw [asyncReceive_receiveView, ReceiveView.ask_received]
    exact received
  next =>
    refine ⟨?_, (finishReceive_report _).trans report⟩
    rw [finishReceive_receiveView _ ((congrArg ReceiveView.receives view).trans receives),
      ReceiveView.finish_received]
    exact received

/-- A receive that takes a chunk completes, and its handler runs. -/
def consume (s : Session) (chunk : Nat × List UInt8) : Session :=
  { s with receiveBuffer := writeBuffer s.receiveBuffer chunk.2, receives := [] }.onReceive
    (.ok chunk.2.length) chunk.1

variable {s : Session} {chunks : List (Nat × List UInt8)}

/-- The bytes that `on_receive` finds in the buffer are those of the chunk. -/
theorem writeBuffer_chunk (buffer : Nat → UInt8) (data : List UInt8) :
    (List.range data.length).map (writeBuffer buffer data) = data := by
  refine List.ext_getElem (by simp) fun i _ bound => ?_
  simp [writeBuffer, bound]

theorem consume_verified (h : Verified .all (chunks.map Prod.snd) s.receiveView s.aborts)
    (all : s.configuration.verify = .all) (chunk : Nat × List UInt8) :
    Verified .all ((chunks ++ [chunk]).map Prod.snd) (s.consume chunk).receiveView
      (s.consume chunk).aborts ∧ (s.consume chunk).configuration.verify = .all := by
  obtain ⟨slice, data⟩ := chunk
  let u : Session := { s with receiveBuffer := writeBuffer s.receiveBuffer data, receives := [] }
  obtain ⟨received, report⟩ := onReceive_ok (s := u) rfl data.length slice
  have setting := onReceive_setting u (.ok data.length) slice
  have same : u.configuration.verify = .all := all
  rw [same] at report
  have counted := Verified.count (v := u.receiveView) (r := u.report) ⟨h.counter, h.reported⟩
    (by simp) received report
  have bytes : (List.range data.length).map u.receiveView.buffer = data :=
    writeBuffer_chunk s.receiveBuffer data
  rw [bytes] at counted
  refine ⟨?_, (congrArg (fun c : Setting => c.configuration.verify) setting).trans all⟩
  rw [List.map_append]
  exact counted

end Session

/-- Whatever the chunks that a stream comes in, verification of every byte has reported a mismatch
exactly when a byte so far differs from its position modulo 256. -/
theorem mismatch_reported_iff {s : Session} (all : s.configuration.verify = .all)
    (fresh : s.statistics.receivedBytesCount.value = 0)
    (clear : .tester .dataMismatch ∉ s.aborts) (chunks : List (Nat × List UInt8)) :
    .tester .dataMismatch ∈ (chunks.foldl Session.consume s).aborts ↔
      ∃ p < (chunks.map Prod.snd).flatten.length,
        (chunks.map Prod.snd).flatten[p]? ≠ some (UInt8.ofNat p) := by
  suffices Verified .all (chunks.map Prod.snd) (chunks.foldl Session.consume s).receiveView
      (chunks.foldl Session.consume s).aborts ∧
      (chunks.foldl Session.consume s).configuration.verify = .all from this.1.reported
  induction chunks using List.reverseRecOn with
  | nil => exact ⟨⟨fresh, by simp [clear, Mismatched]⟩, all⟩
  | append_singleton chunks chunk ih =>
    rw [List.foldl_concat]
    exact Session.consume_verified ih.1 ih.2 chunk

/-- The second of two chunks has a wrong byte. -/
theorem mismatch_reported_second : .tester .dataMismatch ∈
    ([(4, [0, 1]), (2, [2, 0])].foldl Session.consume (.create
      { defaultConfiguration "127.0.0.1:1234" ⟨8, .iec, by decide⟩ with verify := .all }
      (fun _ => 0) 0)).aborts :=
  (mismatch_reported_iff rfl rfl (by simp [Session.create, Session.aborts]) _).mpr
    ⟨3, by decide, by decide⟩

end NetTester
