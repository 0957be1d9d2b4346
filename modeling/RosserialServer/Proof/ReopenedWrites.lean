import RosserialServer.Proof.WriteOrder
import RosserialServer.Session.ReopenWrites

/-!
# Frames written after a reopening

To the writer a port that is reopened is a port like any other (`write_simulates`): it
keeps its queue, and it does not start a write while the one of before the reopening is
outstanding. When that one fails, everything that has been queued behind it since goes
with it, although it was meant for the new port (`frames_kept_iff`).
-/

namespace RosserialServer

namespace ReopenWorld

/-! ## What one operation can do -/

/-- **Everything an operation of the writer can do.** -/
inductive Moves (w : ReopenWorld) : WriteEvent → ReopenWorld → Prop where
  | call {serialMsg : WriteBuffer} {topicId : UInt16} {writeBuf : WriteBuffer}
      (hpack : packagingMsg serialMsg topicId = .ok writeBuf) :
      Moves w (.call serialMsg topicId) { w with packaged := w.packaged ++
        [{ frame := writeBuf.getVector, handed := w.reopened, writtenOn := none }] }
  | lock {i : Nat} {t : Ticket} (ht : w.packaged[i]? = some t) :
      Moves w (.lock i) ({ w with
        writer := (w.writer.enqueue t.frame).1
        packaged := w.packaged.eraseIdx i
        queued := w.queued ++ [t] }.launch (w.writer.enqueue t.frame).2)
  | transfer {i n : Nat} {x : PortWrite} (hx : w.inFlight[i]? = some x) (hn : 0 < n)
      (hroom : x.op.sent + n ≤ x.op.buffer.length) :
      Moves w (.transfer i n) { w with
        inFlight := w.inFlight.set i { x with op := { x.op with sent := x.op.sent + n } } }
  | complete {i : Nat} {x : PortWrite} (hx : w.inFlight[i]? = some x) (hopen : x.onOpen = true)
      (hsent : x.op.sent = x.op.buffer.length) :
      Moves w (.complete i) ({ w with
        writer := (w.writer.writeEcCallback false).1
        queued := w.queued.tail
        left := w.left ++ w.queued.take 1
        inFlight := w.inFlight.eraseIdx i }.launch (w.writer.writeEcCallback false).2)
  | fail {i : Nat} {x : PortWrite} (hx : w.inFlight[i]? = some x) :
      Moves w (.fail i) { w with
        writer := ⟨[]⟩
        queued := []
        left := w.left ++ w.queued
        inFlight := w.inFlight.eraseIdx i
        failures := w.failures ++ [x.reopened] }

theorem writeStep_moves {w w' : ReopenWorld} {e : WriteEvent} (h : w.writeStep e = some w') :
    w.Moves e w' := by
  unfold writeStep at h
  cases e with
  | call serialMsg topicId =>
      dsimp only at h
      split at h
      · exact absurd h (by simp)
      · rename_i writeBuf hpack
        obtain rfl := Option.some.inj h
        exact .call hpack
  | lock i =>
      dsimp only at h
      split at h
      · exact absurd h (by simp)
      · rename_i t ht
        obtain rfl := Option.some.inj h
        exact .lock ht
  | transfer i n =>
      dsimp only at h
      split at h
      · exact absurd h (by simp)
      · rename_i x hx
        split at h
        · rename_i hn
          obtain rfl := Option.some.inj h
          exact .transfer hx hn.2.2.1 hn.2.2.2
        · exact absurd h (by simp)
  | complete i =>
      dsimp only at h
      split at h
      · exact absurd h (by simp)
      · rename_i x hx
        split at h
        · rename_i hn
          obtain rfl := Option.some.inj h
          exact .complete hx hn.1 hn.2
        · exact absurd h (by simp)
  | fail i =>
      dsimp only at h
      split at h
      · exact absurd h (by simp)
      · rename_i x hx
        obtain rfl := Option.some.inj h
        exact .fail hx

/-! ## The writer's own world -/

/-- The writer in `v` is the one in `w`. -/
structure Over (v : WriteWorld) (w : ReopenWorld) : Prop where
  writer : v.writer = w.writer
  packaged : v.packaged = w.packaged.map Ticket.frame
  inFlight : v.inFlight = w.inFlight.map PortWrite.op

theorem Over.launch {v : WriteWorld} {w : ReopenWorld} (h : Over v w)
    (started : Option (List UInt8)) : Over (v.launch started) (w.launch started) := by
  cases started with
  | none => exact ⟨h.writer, h.packaged, (List.append_nil _).trans h.inFlight⟩
  | some buffer =>
      refine ⟨h.writer, h.packaged, ?_⟩
      show v.inFlight ++ [⟨buffer, 0⟩] = (w.inFlight ++ [_]).map PortWrite.op
      rw [List.map_append, h.inFlight]
      rfl

theorem Over.reload {v : WriteWorld} {w : ReopenWorld} (h : Over v w) (opens : Bool) :
    Over v (w.reload opens) := by
  refine ⟨h.writer, h.packaged, ?_⟩
  show v.inFlight = (w.inFlight.map _).map PortWrite.op
  rw [h.inFlight, List.map_map]
  rfl

/-- **On a port that is reopened the writer does what it does on any.** -/
theorem write_simulates {v : WriteWorld} {w w' : ReopenWorld} {e : WriteEvent} (h : Over v w)
    (hs : w.writeStep e = some w') : ∃ v', v.step e = some v' ∧ Over v' w' := by
  have hop : ∀ {i : Nat} {x : PortWrite}, w.inFlight[i]? = some x → v.inFlight[i]? = some x.op := by
    intro i x hx
    rw [h.inFlight, List.getElem?_map, hx]
    rfl
  have herase : ∀ i : Nat, v.inFlight.eraseIdx i = (w.inFlight.eraseIdx i).map PortWrite.op := by
    intro i
    rw [h.inFlight, List.eraseIdx_map]
  unfold WriteWorld.step
  cases writeStep_moves hs with
  | call hpack =>
      dsimp only
      rw [hpack]
      refine ⟨_, rfl, h.writer, ?_, h.inFlight⟩
      show v.packaged ++ [_] = (w.packaged ++ [_]).map Ticket.frame
      rw [h.packaged, List.map_append]
      rfl
  | @lock i t ht =>
      have hpackaged : v.packaged[i]? = some t.frame := by
        rw [h.packaged, List.getElem?_map, ht]
        rfl
      dsimp only
      rw [hpackaged, h.writer]
      refine ⟨_, rfl, Over.launch ?_ _⟩
      refine ⟨rfl, ?_, h.inFlight⟩
      show v.packaged.eraseIdx i = (w.packaged.eraseIdx i).map Ticket.frame
      rw [h.packaged, List.eraseIdx_map]
  | @transfer i n x hx hn hroom =>
      dsimp only
      rw [hop hx]
      refine ⟨_, if_pos ⟨hn, hroom⟩, h.writer, h.packaged, ?_⟩
      show v.inFlight.set i _ = (w.inFlight.set i _).map PortWrite.op
      rw [h.inFlight, List.map_set]
  | @complete i x hx hopen hsent =>
      dsimp only
      rw [hop hx, h.writer]
      refine ⟨_, if_pos hsent, Over.launch ?_ _⟩
      exact ⟨rfl, h.packaged, herase i⟩
  | @fail i x hx =>
      dsimp only
      rw [hop hx]
      refine ⟨_, rfl, rfl, h.packaged, ?_⟩
      show v.inFlight.eraseIdx i ++ [] = _
      rw [List.append_nil]
      exact herase i

/-- The operations of the writer in an event. -/
def writeEvent : ReopenEvent → Option WriteEvent
  | .write e => some e
  | .reload _ => none

theorem run_simulates {es : List ReopenEvent} {v : WriteWorld} {w w' : ReopenWorld}
    (h : Over v w) (hx : Lts.exec step w es = some w') :
    ∃ v', Lts.exec WriteWorld.step v (es.filterMap writeEvent) = some v' ∧ Over v' w' := by
  induction es generalizing v w with
  | nil =>
      simp only [Lts.exec_nil, Option.some.injEq] at hx
      subst hx
      exact ⟨v, rfl, h⟩
  | cons e es ih =>
      obtain ⟨u, hu, hrest⟩ := Lts.exec_cons.mp hx
      cases e with
      | write e =>
          obtain ⟨v₁, hv₁, hover⟩ := write_simulates h hu
          obtain ⟨v', hv', hover'⟩ := ih hover hrest
          exact ⟨v', Lts.exec_cons.mpr ⟨v₁, hv₁, hv'⟩, hover'⟩
      | reload opens =>
          obtain rfl := Option.some.inj hu
          exact ih (h.reload opens) hrest

/-- **At most one write is in flight, also across reopenings**, and it is that of the front. -/
theorem reopened_serial {isOpen : Bool} {es : List ReopenEvent} {w : ReopenWorld}
    (hx : Lts.exec step (init isOpen) es = some w) :
    WriteWorld.Serial w.writer.sendBufs (w.inFlight.map PortWrite.op) := by
  have hinit : Over WriteWorld.init (init isOpen) := ⟨rfl, rfl, rfl⟩
  obtain ⟨v, hv, hover⟩ := run_simulates hinit hx
  rw [← hover.writer, ← hover.inFlight]
  exact WriteWorld.serial_reachable hv

/-! ## What became of a frame -/

/--
What a frame is owed: to have been the buffer of an `async_write` on the port that was
reopened before it was handed over, or on a later one, unless an `async_write` started
since that reopening has failed.
-/
def Kept (w : ReopenWorld) (t : Ticket) : Prop :=
  (∃ n, t.writtenOn = some n ∧ t.handed ≤ n) ∨ ∃ n ∈ w.failures, t.handed ≤ n

/-- No frame handed over after a reopening has left the queue without that. -/
def NoneLost (w : ReopenWorld) : Prop := ∀ t ∈ w.left, 0 < t.handed → w.Kept t

/--
The write that fails was not started before a reopening after which a frame was queued
behind it.
-/
def FailsAlone (w : ReopenWorld) : ReopenEvent → Prop
  | .write (.fail i) => ∀ x, w.inFlight[i]? = some x → ∀ t ∈ w.queued, t.handed ≤ x.reopened
  | _ => True

/-- The queue and the write in flight, with the ports they are about. -/
inductive InStep (reopened : Nat) (failures : List Nat) : List Ticket → List PortWrite → Prop where
  | idle : InStep reopened failures [] []
  | busy {t : Ticket} {rest : List Ticket} {x : PortWrite} (handed : t.handed ≤ x.reopened)
      (started : x.reopened ≤ reopened) (written : x.onOpen = true → t.writtenOn = some x.reopened)
      (failed : ∀ n ∈ failures, n ≤ x.reopened)
      (behind : ∀ u ∈ rest, u.writtenOn = none ∧ u.handed ≤ reopened) :
      InStep reopened failures (t :: rest) [x]

/-- The invariant of a run. -/
structure Tagged (w : ReopenWorld) : Prop where
  frames : w.writer.sendBufs = w.queued.map Ticket.frame
  inStep : InStep w.reopened w.failures w.queued w.inFlight
  packaged : ∀ t ∈ w.packaged, t.writtenOn = none ∧ t.handed ≤ w.reopened
  failures : ∀ n ∈ w.failures, n ≤ w.reopened

theorem init_tagged (isOpen : Bool) : (init isOpen).Tagged :=
  ⟨rfl, .idle, by simp [init], by simp [init]⟩

/-- The one write in flight. -/
theorem InStep.inFlight {reopened : Nat} {failures : List Nat} {ts : List Ticket}
    {xs : List PortWrite} {i : Nat} {x : PortWrite} (h : InStep reopened failures ts xs)
    (hx : xs[i]? = some x) :
    i = 0 ∧ xs = [x] ∧ ∃ t rest, ts = t :: rest ∧ t.handed ≤ x.reopened ∧ x.reopened ≤ reopened
      ∧ (x.onOpen = true → t.writtenOn = some x.reopened) ∧ (∀ n ∈ failures, n ≤ x.reopened)
      ∧ ∀ u ∈ rest, u.writtenOn = none ∧ u.handed ≤ reopened := by
  cases h with
  | idle => exact absurd hx (by simp)
  | @busy t rest y handed started written failed behind =>
      cases i with
      | zero =>
          obtain rfl : y = x := by simpa using hx
          exact ⟨rfl, rfl, t, rest, rfl, handed, started, written, failed, behind⟩
      | succ i => exact absurd hx (by simp)

/-- With nothing in flight, the front of a queue of waiting frames may be started. -/
theorem launch_tagged {w : ReopenWorld} (hframes : w.writer.sendBufs = w.queued.map Ticket.frame)
    (hidle : w.inFlight = []) (hqueued : ∀ t ∈ w.queued, t.writtenOn = none ∧ t.handed ≤ w.reopened)
    (hpackaged : ∀ t ∈ w.packaged, t.writtenOn = none ∧ t.handed ≤ w.reopened)
    (hfailures : ∀ n ∈ w.failures, n ≤ w.reopened) :
    (w.launch w.writer.sendBufs.head?).Tagged := by
  cases hq : w.queued with
  | nil =>
      rw [hq] at hframes
      rw [hframes]
      refine ⟨?_, ?_, hpackaged, hfailures⟩
      · show w.writer.sendBufs = w.queued.map Ticket.frame
        rw [hframes, hq]
      show InStep w.reopened w.failures w.queued w.inFlight
      rw [hq, hidle]
      exact .idle
  | cons t rest =>
      rw [hq] at hqueued
      rw [hframes, hq]
      refine ⟨?_, ?_, hpackaged, hfailures⟩
      · show w.writer.sendBufs = (startFront _ w.queued).map Ticket.frame
        rw [hframes, hq]
        rfl
      · show InStep w.reopened w.failures (startFront _ w.queued) (w.inFlight ++ [_])
        rw [hq, hidle]
        refine .busy (hqueued t (by simp)).2 (Nat.le_refl _) ?_ hfailures ?_
        · intro hopen
          exact if_pos hopen
        · intro u hu
          exact hqueued u (by simp [hu])

theorem reload_tagged {w : ReopenWorld} (h : w.Tagged) (opens : Bool) : (w.reload opens).Tagged := by
  have hle : w.reopened ≤ (w.reload opens).reopened := by
    unfold reload
    dsimp only
    split
    · exact Nat.le_succ _
    · exact Nat.le_refl _
  refine ⟨h.frames, ?_, ?_, ?_⟩
  · have hstep := h.inStep
    show InStep (w.reload opens).reopened w.failures w.queued (w.inFlight.map _)
    generalize w.queued = ts at hstep ⊢
    generalize w.inFlight = xs at hstep ⊢
    cases hstep with
    | idle => exact .idle
    | busy handed started written failed behind =>
        refine .busy handed (Nat.le_trans started hle) written failed ?_
        intro u hu
        exact ⟨(behind u hu).1, Nat.le_trans (behind u hu).2 hle⟩
  · intro t ht
    exact ⟨(h.packaged t ht).1, Nat.le_trans (h.packaged t ht).2 hle⟩
  · intro n hn
    exact Nat.le_trans (h.failures n hn) hle

/-- A caller either finds the queue empty and starts its own frame, or waits behind the others. -/
theorem lock_tagged {w : ReopenWorld} (h : w.Tagged) {i : Nat} {t : Ticket}
    (ht : w.packaged[i]? = some t) :
    ({ w with
      writer := (w.writer.enqueue t.frame).1
      packaged := w.packaged.eraseIdx i
      queued := w.queued ++ [t] }.launch (w.writer.enqueue t.frame).2).Tagged := by
  have hnew := h.packaged t (List.mem_of_getElem? ht)
  have hpackaged : ∀ u ∈ w.packaged.eraseIdx i, u.writtenOn = none ∧ u.handed ≤ w.reopened :=
    fun u hu => h.packaged u (List.mem_of_mem_eraseIdx hu)
  have hframes := h.frames
  have hstep := h.inStep
  cases hq : w.queued with
  | nil =>
      have hidle : w.inFlight = [] := by
        rw [hq] at hstep
        generalize w.inFlight = xs at hstep ⊢
        cases hstep with
        | idle => rfl
      have henq : w.writer.enqueue t.frame = (⟨[t.frame]⟩, some t.frame) := by
        rw [hq] at hframes
        unfold AsyncWriteBuffer.enqueue
        rw [hframes]
        rfl
      rw [henq]
      refine launch_tagged (w := { w with
        writer := ⟨[t.frame]⟩, packaged := w.packaged.eraseIdx i, queued := [] ++ [t] })
        rfl hidle ?_ hpackaged h.failures
      intro u hu
      obtain rfl : u = t := by simpa using hu
      exact hnew
  | cons front rest =>
      have henq : w.writer.enqueue t.frame = (⟨w.writer.sendBufs ++ [t.frame]⟩, none) := by
        rw [hq] at hframes
        unfold AsyncWriteBuffer.enqueue
        rw [hframes]
        rfl
      rw [henq]
      refine ⟨?_, ?_, hpackaged, h.failures⟩
      · show w.writer.sendBufs ++ [t.frame] = (front :: rest ++ [t]).map Ticket.frame
        rw [List.map_append, hframes, hq]
        rfl
      · rw [hq] at hstep
        show InStep w.reopened w.failures (front :: (rest ++ [t])) w.inFlight
        generalize w.inFlight = xs at hstep ⊢
        cases hstep with
        | busy handed started written failed behind =>
            refine .busy handed started written failed ?_
            intro u hu
            rcases List.mem_append.mp hu with hu | hu
            · exact behind u hu
            · obtain rfl : u = t := by simpa using hu
              exact hnew

theorem move_tagged {w w' : ReopenWorld} {e : WriteEvent} (h : w.Tagged) (hmove : w.Moves e w') :
    w'.Tagged := by
  cases hmove with
  | call hpack =>
      refine ⟨h.frames, h.inStep, ?_, h.failures⟩
      intro t ht
      rcases List.mem_append.mp ht with ht | ht
      · exact h.packaged t ht
      · obtain rfl := List.mem_singleton.mp ht
        exact ⟨rfl, Nat.le_refl _⟩
  | lock ht => exact lock_tagged h ht
  | transfer hx hn hroom =>
      obtain ⟨rfl, hxs, t, rest, hq, handed, started, written, failed, behind⟩ := h.inStep.inFlight hx
      refine ⟨h.frames, ?_, h.packaged, h.failures⟩
      show InStep w.reopened w.failures w.queued (w.inFlight.set 0 _)
      rw [hxs, hq]
      exact .busy handed started written failed behind
  | complete hx hopen hsent =>
      obtain ⟨rfl, hxs, t, rest, hq, handed, started, written, failed, behind⟩ := h.inStep.inFlight hx
      obtain ⟨hbufs, hstart⟩ := WriteWorld.complete_queue w.writer.sendBufs
      change (w.writer.writeEcCallback false).1.sendBufs = _ at hbufs
      change (w.writer.writeEcCallback false).2 = _ at hstart
      rw [hstart, ← hbufs]
      refine launch_tagged ?_ ?_ ?_ h.packaged h.failures
      · show (w.writer.writeEcCallback false).1.sendBufs = w.queued.tail.map Ticket.frame
        rw [hbufs, h.frames, List.map_tail]
      · show w.inFlight.eraseIdx 0 = []
        rw [hxs]
        rfl
      · show ∀ u ∈ w.queued.tail, _
        rw [hq]
        exact behind
  | fail hx =>
      obtain ⟨rfl, hxs, t, rest, hq, handed, started, written, failed, behind⟩ := h.inStep.inFlight hx
      refine ⟨rfl, ?_, h.packaged, ?_⟩
      · show InStep w.reopened _ [] (w.inFlight.eraseIdx 0)
        rw [hxs]
        exact .idle
      · intro n hn
        rcases List.mem_append.mp hn with hn | hn
        · exact h.failures n hn
        · obtain rfl := List.mem_singleton.mp hn
          exact started

theorem step_tagged {w w' : ReopenWorld} {e : ReopenEvent} (h : w.Tagged)
    (hs : w.step e = some w') : w'.Tagged := by
  cases e with
  | write e => exact move_tagged h (writeStep_moves hs)
  | reload opens =>
      obtain rfl := Option.some.inj hs
      exact reload_tagged h opens

/-! ## Nothing is lost -/

/-- What has left the queue stays as it was, and no failure is forgotten. -/
theorem NoneLost.congr {w w' : ReopenWorld} (hleft : w'.left = w.left)
    (hfailures : w'.failures = w.failures) : w'.NoneLost ↔ w.NoneLost := by
  unfold NoneLost Kept
  rw [hleft, hfailures]

theorem launch_left (w : ReopenWorld) (started : Option (List UInt8)) :
    (w.launch started).left = w.left ∧ (w.launch started).failures = w.failures := by
  cases started with
  | none => exact ⟨rfl, rfl⟩
  | some buffer => exact ⟨rfl, rfl⟩

/-- A frame whose write has completed was on a port as new as it needed. -/
theorem complete_noneLost {w : ReopenWorld} (h : w.Tagged) (hp : w.NoneLost) {i : Nat}
    {x : PortWrite} (hx : w.inFlight[i]? = some x) (hopen : x.onOpen = true) :
    ∀ t ∈ w.left ++ w.queued.take 1, 0 < t.handed → w.Kept t := by
  obtain ⟨-, -, front, rest, hq, handed, -, written, -⟩ := h.inStep.inFlight hx
  intro t ht hpos
  rcases List.mem_append.mp ht with ht | ht
  · exact hp t ht hpos
  · rw [hq] at ht
    obtain rfl : t = front := by simpa using ht
    exact Or.inl ⟨_, written hopen, handed⟩

/-- **A write that fails loses nothing exactly if it is as new as what is queued.** -/
theorem fail_noneLost_iff {w : ReopenWorld} (h : w.Tagged) (hp : w.NoneLost) {i : Nat}
    {x : PortWrite} (hx : w.inFlight[i]? = some x) :
    NoneLost { w with
        writer := ⟨[]⟩
        queued := []
        left := w.left ++ w.queued
        inFlight := w.inFlight.eraseIdx i
        failures := w.failures ++ [x.reopened] }
      ↔ ∀ t ∈ w.queued, t.handed ≤ x.reopened := by
  obtain ⟨-, -, front, rest, hq, handed, -, -, failed, behind⟩ := h.inStep.inFlight hx
  constructor
  · intro hnone t ht
    rcases Nat.eq_zero_or_pos t.handed with hzero | hpos
    · omega
    · rw [hq] at ht
      rcases List.mem_cons.mp ht with rfl | hrest
      · exact handed
      · rcases hnone t (List.mem_append_right _ (by rw [hq]; exact ht)) hpos with
          ⟨n, hn, -⟩ | ⟨n, hn, hle⟩
        · -- what is behind the front has not been written to any port
          rw [(behind t hrest).1] at hn
          exact absurd hn (by simp)
        · rcases List.mem_append.mp hn with hn | hn
          · exact Nat.le_trans hle (failed n hn)
          · rwa [List.mem_singleton.mp hn] at hle
  · intro hall t ht hpos
    rcases List.mem_append.mp ht with ht | ht
    · rcases hp t ht hpos with hwritten | ⟨n, hn, hle⟩
      · exact Or.inl hwritten
      · exact Or.inr ⟨n, List.mem_append_left _ hn, hle⟩
    · exact Or.inr ⟨x.reopened, List.mem_append_right _ (by simp), hall t ht⟩

/-- **One step.** -/
theorem step_noneLost_iff {w w' : ReopenWorld} {e : ReopenEvent} (h : w.Tagged) (hp : w.NoneLost)
    (hs : w.step e = some w') : w'.NoneLost ↔ w.FailsAlone e := by
  cases e with
  | reload opens =>
      obtain rfl := Option.some.inj hs
      exact iff_of_true hp trivial
  | write e =>
      cases writeStep_moves hs with
      | call hpack => exact iff_of_true hp trivial
      | lock ht =>
          obtain ⟨hleft, hfailures⟩ := launch_left { w with
            writer := _, packaged := _, queued := _ } (w.writer.enqueue _).2
          exact iff_of_true ((NoneLost.congr hleft hfailures).mpr hp) trivial
      | transfer hx hn hroom => exact iff_of_true hp trivial
      | @complete i x hx hopen hsent =>
          obtain ⟨hleft, hfailures⟩ := launch_left { w with
            writer := (w.writer.writeEcCallback false).1
            queued := w.queued.tail
            left := w.left ++ w.queued.take 1
            inFlight := w.inFlight.eraseIdx i } (w.writer.writeEcCallback false).2
          refine iff_of_true ((NoneLost.congr hleft hfailures).mpr ?_) trivial
          exact complete_noneLost h hp hx hopen
      | @fail i x hx =>
          rw [fail_noneLost_iff h hp hx]
          constructor
          · intro hall y hy
            rw [hx] at hy
            obtain rfl := Option.some.inj hy
            exact hall
          · intro hall
            exact hall x hx

end ReopenWorld

/--
**No frame handed over after a reopening is lost exactly in the runs in which no write
fails that was started before it**, with the frame behind it.
-/
theorem frames_kept_iff (isOpen : Bool) (es : List ReopenEvent) (w : ReopenWorld)
    (hx : Lts.exec ReopenWorld.step (.init isOpen) es = some w) :
    Lts.Visits ReopenWorld.step ReopenWorld.NoneLost (.init isOpen) es
      ↔ Lts.Takes ReopenWorld.step ReopenWorld.FailsAlone (.init isOpen) es := by
  have hnone : (ReopenWorld.init isOpen).NoneLost := by
    intro t ht
    exact absurd ht (by simp [ReopenWorld.init])
  refine Lts.visits_iff_takes (I := ReopenWorld.Tagged) (K := fun _ => True) ?_ ?_ ?_
    (ReopenWorld.init_tagged isOpen) hnone hx trivial
  · intro s e s' h hs
    exact ReopenWorld.step_tagged h hs
  · intro s e s' _ _
    trivial
  · intro s e s' h hp _ hs
    exact ReopenWorld.step_noneLost_iff h hp hs

/-- The write that was aborted fails before anything is queued behind it. -/
theorem frames_kept_reopened :
    Lts.Visits ReopenWorld.step ReopenWorld.NoneLost (.init true)
      [.write (.call (.new 0) 101), .write (.lock 0), .reload true, .write (.fail 0),
        .write (.call (.new 0) 102), .write (.lock 0)] := by
  refine (frames_kept_iff true _ _ rfl).mpr ?_
  refine ⟨trivial, fun s₁ h₁ => ⟨trivial, fun s₂ h₂ => ⟨trivial, fun s₃ h₃ => ⟨?_, fun s₄ _ =>
    ⟨trivial, fun s₅ _ => ⟨trivial, fun s₆ _ => trivial⟩⟩⟩⟩⟩⟩
  obtain rfl := Option.some.inj h₁
  obtain rfl := Option.some.inj h₂
  obtain rfl := Option.some.inj h₃
  intro x _ t ht
  obtain rfl := List.mem_singleton.mp ht
  exact Nat.zero_le _

/--
The port is reopened while a frame is being written. The next one waits for it, and is
dropped with it.
-/
theorem frames_lost_reopened : ∃ w,
    Lts.exec ReopenWorld.step (.init true)
      [.write (.call (.new 0) 101), .write (.lock 0), .reload true,
        .write (.call (.new 0) 102), .write (.lock 0), .write (.fail 0)] = some w
      ∧ ⟨[0xFF, 0xFE, 0, 0, 0xFF, 102, 0, 153], 1, none⟩ ∈ w.left ∧ w.queued = []
      ∧ w.isOpen = true ∧ w.failures = [0] ∧ ¬w.NoneLost := by
  have hrun : ∃ w, Lts.exec ReopenWorld.step (.init true)
      [.write (.call (.new 0) 101), .write (.lock 0), .reload true,
        .write (.call (.new 0) 102), .write (.lock 0), .write (.fail 0)] = some w
      ∧ ⟨[0xFF, 0xFE, 0, 0, 0xFF, 102, 0, 153], 1, none⟩ ∈ w.left ∧ w.queued = []
      ∧ w.isOpen = true ∧ w.failures = [0] :=
    ⟨_, rfl, List.mem_cons_of_mem _ (List.mem_singleton.mpr rfl), rfl, rfl, rfl⟩
  obtain ⟨w, hx, hleft, hqueued, hopen, hfailures⟩ := hrun
  refine ⟨w, hx, hleft, hqueued, hopen, hfailures, ?_⟩
  intro hnone
  rcases hnone _ hleft Nat.one_pos with ⟨n, hn, -⟩ | ⟨n, hn, hle⟩
  · exact absurd hn (by simp)
  · rw [hfailures] at hn
    obtain rfl := List.mem_singleton.mp hn
    exact absurd hle (by simp)

end RosserialServer
