import RosserialServer.Proof.Containment
import RosserialServer.Proof.Extraction
import RosserialServer.Proof.NodeSteps
import RosserialServer.Proof.Routing
import RosserialServer.Proof.Subscribing
import RosserialServer.Proof.WriteOrder

/-!
# The node refines its two sides

`ReadWorld` and `WriteWorld` say what the read buffer and the write buffer do when their
operations may complete at any moment. Here it is shown that the node, with its one queue
of handlers and its ticks, never does anything else: every run of it is a run of the one
and a run of the other, side by side (`node_refines`).

The two sides share nothing but the queue. What is outstanding in the node is therefore at
most one thing of each side (`ReadSide`, `WriteSide`), and a turn takes away and puts back
things of one side only. An operation that has to ask the port again is, on its side, one
that has not completed yet: the bytes it has got are still in the port (`ReadSide.reading`).
-/

namespace RosserialServer

open MemBlock RosStream StreamDeserialization

/-! ## Other chunks to arrive -/

namespace ReadWorld

variable {κ ρ : Type}

/-- The same, with other chunks that will still arrive. -/
def awaiting (r : ReadWorld κ ρ) (more : List (List UInt8)) : ReadWorld κ ρ := { r with wire := more }

theorem awaiting_perform (r : ReadWorld κ ρ) (more : List (List UInt8)) (next : Next κ) :
    (r.awaiting more).perform next = (r.perform next).awaiting more := by
  cases next <;> rfl

theorem awaiting_runPosted (react : Reaction κ ρ) (r : ReadWorld κ ρ) (more : List (List UInt8))
    (callback : Option κ) (off len : Nat) :
    (r.awaiting more).runPosted react callback off len
      = (r.runPosted react callback off len).awaiting more := by
  cases callback with
  | none => rfl
  | some k =>
      let out := react k r.user (RosStream.ofBuffer (slice r.reader.mem off len))
      exact awaiting_perform { r with user := out.1 } more out.2

/-- What will arrive does not matter before it does. -/
theorem awaiting_step {react : Reaction κ ρ} {r r' : ReadWorld κ ρ} {e : PortEvent}
    (h : r.step react e = some r') (he : e ≠ .arrive) (more : List (List UInt8)) :
    (r.awaiting more).step react e = some (r'.awaiting more) := by
  unfold step at h ⊢
  have hsame : (r.awaiting more).escaped = r.escaped := rfl
  rw [hsame]
  split at h
  · exact absurd h (by simp)
  · rename_i hesc
    rw [if_neg hesc]
    have hio : (r.awaiting more).serviceIo = r.serviceIo := rfl
    have hav : (r.awaiting more).arrived = r.arrived := rfl
    cases e with
    | arrive => exact absurd rfl he
    | transfer i n =>
        dsimp only at h ⊢
        rw [hio, hav]
        split at h
        · split at h
          · rename_i hn
            obtain rfl := Option.some.inj h
            exact if_pos hn
          · exact absurd h (by simp)
        · split at h
          · rename_i hn
            obtain rfl := Option.some.inj h
            exact if_pos hn
          · exact absurd h (by simp)
        · exact absurd h (by simp)
    | fail i =>
        dsimp only at h ⊢
        rw [hio]
        split at h
        · obtain rfl := Option.some.inj h
          rfl
        · obtain rfl := Option.some.inj h
          rfl
        · exact absurd h (by simp)
    | run i =>
        dsimp only at h ⊢
        rw [hio]
        split at h
        · rename_i callback off len hc
          obtain rfl := Option.some.inj h
          exact congrArg some (awaiting_runPosted react (r.take i) more callback off len)
        · exact absurd h (by simp)

end ReadWorld

/-! ## Deliveries and failures -/

/-- How something asked of the read buffer ends. -/
inductive ReadOutcome where
  | delivered
  | failed

def PortEvent.outcome : PortEvent → Option ReadOutcome
  | .run _ => some .delivered
  | .fail _ => some .failed
  | .arrive => none
  | .transfer _ _ => none

def ReadyHandler.outcome : ReadyHandler → Option ReadOutcome
  | .posted _ _ _ => some .delivered
  | .failed (.read _ _ _ _) => some .failed
  | .failed (.write _) => none
  | .progressed _ => none

def WriteEvent.outcome : WriteEvent → Option Fate
  | .complete _ => some .delivered
  | .fail _ => some .discarded
  | .call _ _ => none
  | .lock _ => none
  | .transfer _ _ => none

/-- What becomes of a write, for the handlers that end one. -/
def ReadyHandler.fate : ReadyHandler → Option Fate
  | .progressed (.write op) => if op.sent < op.buffer.length then none else some .delivered
  | .failed (.write _) => some .discarded
  | .progressed (.read _ _ _ _) => none
  | .failed (.read _ _ _ _) => none
  | .posted _ _ _ => none

/-! ## The two sides of what is outstanding -/

/-- The handler belongs to a read. -/
def ReadyHandler.ofRead : ReadyHandler → Bool
  | .posted _ _ _ => true
  | .progressed (.read _ _ _ _) => true
  | .progressed (.write _) => false
  | .failed (.read _ _ _ _) => true
  | .failed (.write _) => false

/--
The read buffer of the node is that of its side, but for what a read has got so far: it is in
the block behind `write_index_`, and on its side still in the port.
-/
structure InBlock (reader : AsyncReadBuffer Handler) (arrived : List UInt8)
    (r : ReadWorld Handler (Session Journal)) (got : List UInt8) : Prop where
  reader : reader = { r.reader with mem := overwrite r.reader.mem r.reader.writeIndex got }
  arrived : r.arrived = got ++ arrived

/-- What of the node's read buffer is outstanding, and how it stands on its side. -/
inductive ReadSide (reader : AsyncReadBuffer Handler) (arrived : List UInt8)
    (r : ReadWorld Handler (Session Journal)) : List ReadyHandler → Prop where
  | silent {got : List UInt8} :
      r.serviceIo = [] → InBlock reader arrived r got → ReadSide reader arrived r []
  | posted {callback : Option Handler} {off len : Nat} :
      r.serviceIo = [.post callback off len] → r.reader = reader → r.arrived = arrived →
      ReadSide reader arrived r [.posted callback off len]
  | reading {c : Continuation Handler} {off size atLeast : Nat} {got : List UInt8} :
      r.serviceIo = [c] → ReadWorld.IsPortRead c off size atLeast → off = r.reader.writeIndex →
      got.length ≤ size → InBlock reader arrived r got →
      ReadSide reader arrived r [.progressed (.read off size atLeast got)]
  | failed {c : Continuation Handler} {off size atLeast : Nat} {got : List UInt8} :
      r.serviceIo = [c] → ReadWorld.IsPortRead c off size atLeast → InBlock reader arrived r got →
      ReadSide reader arrived r [.failed (.read off size atLeast got)]

/-- What of the node's write buffer is outstanding. -/
inductive WriteSide (s : WriteWorld) : List ReadyHandler → Prop where
  | idle : s.inFlight = [] → WriteSide s []
  | writing {op : WriteOp} : s.inFlight = [op] → WriteSide s [.progressed (.write op)]
  | failed {op : WriteOp} : s.inFlight = [op] → WriteSide s [.failed (.write op)]

section Sides

variable {reader : AsyncReadBuffer Handler} {arrived : List UInt8}
  {r : ReadWorld Handler (Session Journal)} {s : WriteWorld} {rs ws : List ReadyHandler}

theorem ReadSide.shape (h : ReadSide reader arrived r rs) :
    rs.length ≤ 1 ∧ ∀ x ∈ rs, x.ofRead = true := by
  cases h <;> simp [ReadyHandler.ofRead]

theorem WriteSide.shape (h : WriteSide s ws) : ws.length ≤ 1 ∧ ∀ x ∈ ws, x.ofRead = false := by
  cases h <;> simp [ReadyHandler.ofRead]

theorem InBlock.of_same (hreader : r.reader = reader) (harr : r.arrived = arrived) :
    InBlock reader arrived r [] := by
  refine ⟨?_, harr⟩
  rw [overwrite_nil, hreader]

theorem InBlock.arrive {got : List UInt8} (h : InBlock reader arrived r got) (chunk : List UInt8) :
    InBlock reader (arrived ++ chunk) { r with arrived := r.arrived ++ chunk } got := by
  refine ⟨h.reader, ?_⟩
  show r.arrived ++ chunk = _
  rw [h.arrived, List.append_assoc]

/-- Whatever is outstanding, the block is the one of the side. -/
theorem ReadSide.inBlock (h : ReadSide reader arrived r rs) :
    ∃ got, InBlock reader arrived r got := by
  cases h with
  | silent _ hblock => exact ⟨_, hblock⟩
  | posted _ hreader harr => exact ⟨[], InBlock.of_same hreader harr⟩
  | reading _ _ _ _ hblock => exact ⟨_, hblock⟩
  | failed _ _ hblock => exact ⟨_, hblock⟩

theorem ReadSide.awaiting (h : ReadSide reader arrived r rs) (more : List (List UInt8)) :
    ReadSide reader arrived (r.awaiting more) rs := by
  cases h with
  | silent hio hblock => exact ReadSide.silent hio ⟨hblock.reader, hblock.arrived⟩
  | posted hio hreader harr => exact ReadSide.posted hio hreader harr
  | reading hio hp hoff hle hblock =>
      exact ReadSide.reading hio hp hoff hle ⟨hblock.reader, hblock.arrived⟩
  | failed hio hp hblock => exact ReadSide.failed hio hp ⟨hblock.reader, hblock.arrived⟩

/-- An element of a list of two parts is the whole of the part it is of. -/
theorem part_eq {xs ys rest : List ReadyHandler} {x : ReadyHandler}
    (hperm : (x :: rest).Perm (xs ++ ys)) (hxs : xs.length ≤ 1) (hx : x ∉ ys) :
    xs = [x] ∧ rest.Perm ys := by
  have hmem : x ∈ xs := by
    rcases List.mem_append.mp (hperm.subset List.mem_cons_self) with hmem | hmem
    · exact hmem
    · exact absurd hmem hx
  obtain ⟨y, rfl⟩ : ∃ y, xs = [y] := by
    match xs, hxs with
    | [], _ => exact absurd hmem (by simp)
    | [y], _ => exact ⟨y, rfl⟩
  obtain rfl := List.mem_singleton.mp hmem
  exact ⟨rfl, hperm.cons_inv⟩

/-- A handler of a read is all that is outstanding of its side. -/
theorem read_part {x : ReadyHandler} {rest : List ReadyHandler}
    (hperm : (x :: rest).Perm (rs ++ ws)) (hx : x.ofRead = true)
    (hr : ReadSide reader arrived r rs) (hw : WriteSide s ws) : rs = [x] ∧ rest.Perm ws := by
  refine part_eq hperm hr.shape.1 ?_
  intro hmem
  have := hw.shape.2 x hmem
  rw [hx] at this
  exact absurd this (by simp)

theorem write_part {x : ReadyHandler} {rest : List ReadyHandler}
    (hperm : (x :: rest).Perm (rs ++ ws)) (hx : x.ofRead = false)
    (hr : ReadSide reader arrived r rs) (hw : WriteSide s ws) : ws = [x] ∧ rest.Perm rs := by
  refine part_eq (hperm.trans List.perm_append_comm) hw.shape.1 ?_
  intro hmem
  have := hr.shape.2 x hmem
  rw [hx] at this
  exact absurd this (by simp)

/-- What stands in its place leaves the other side alone. -/
theorem put_read {out rest : List ReadyHandler} {x : ReadyHandler} (hout : out.Perm (x :: rest))
    (hrest : rest.Perm ws) : out.Perm ([x] ++ ws) := hout.trans (hrest.cons x)

theorem put_write {out rest : List ReadyHandler} {x : ReadyHandler} (hout : out.Perm (x :: rest))
    (hrest : rest.Perm rs) : out.Perm (rs ++ [x]) :=
  (hout.trans (hrest.cons x)).trans (List.perm_append_singleton x rs).symm

/-- A read that is asked for is one into the block behind `write_index_`. -/
def AsksBehind (reader : AsyncReadBuffer Handler) (c : Option (Continuation Handler)) : Prop :=
  ∀ c' off size atLeast, c = some c' → ReadWorld.IsPortRead c' off size atLeast →
    off = reader.writeIndex

theorem read_asksBehind (b : AsyncReadBuffer Handler) (n : Nat) (k : Handler) :
    AsksBehind (b.read n k).1 (b.read n k).2 := by
  intro c off size atLeast hc hp
  unfold AsyncReadBuffer.read at hc ⊢
  dsimp only at hc ⊢
  split at hc
  · exact absurd hc (by simp)
  · split at hc
    · rename_i hsmall hmore
      rw [if_neg hsmall, if_pos hmore]
      obtain rfl := Option.some.inj hc
      rcases hp with hp | ⟨hp, -⟩
      · injection hp with hoff
        exact hoff.symm
      · exact absurd hp (by simp)
    · obtain rfl := Option.some.inj hc
      rcases hp with hp | ⟨hp, -⟩ <;> exact absurd hp (by simp [AsyncReadBuffer.callSussessCallback])

theorem readCallback_asksBehind (b : AsyncReadBuffer Handler) (ec : Bool) (n : Nat) :
    AsksBehind (b.readCallback ec n).1 (b.readCallback ec n).2 := by
  intro c off size atLeast hc hp
  unfold AsyncReadBuffer.readCallback at hc ⊢
  dsimp only at hc ⊢
  split at hc
  · exact absurd hc (by simp)
  · rename_i hwell
    split at hc
    · obtain rfl := Option.some.inj hc
      rcases hp with hp | ⟨hp, -⟩ <;> exact absurd hp (by simp [AsyncReadBuffer.callSussessCallback])
    · rename_i hmore
      rw [if_neg hwell, if_neg hmore]
      obtain rfl := Option.some.inj hc
      rcases hp with hp | ⟨hp, -⟩
      · exact absurd hp (by simp)
      · injection hp with hoff
        exact hoff.symm

/-- What a read buffer has just asked for. -/
theorem asked_side {c : Option (Continuation Handler)} (hreader : r.reader = reader)
    (harr : r.arrived = arrived) (hio : r.serviceIo = c.toList) (hbehind : AsksBehind reader c) :
    ReadSide reader arrived r (NodeWorld.asked c) := by
  have hblock := InBlock.of_same hreader harr
  have hoff : ∀ c' off size atLeast, c = some c' → ReadWorld.IsPortRead c' off size atLeast →
      off = r.reader.writeIndex := by
    rw [hreader]
    exact hbehind
  match c with
  | none => exact ReadSide.silent hio hblock
  | some (.post callback off len) => exact ReadSide.posted hio hreader harr
  | some (.asyncRead off size atLeast) =>
      exact ReadSide.reading hio (Or.inl rfl) (hoff _ _ _ _ rfl (Or.inl rfl)) (Nat.zero_le _) hblock
  | some (.asyncReadSome off size) =>
      exact ReadSide.reading hio (Or.inr ⟨rfl, rfl⟩) (hoff _ _ _ _ rfl (Or.inr ⟨rfl, rfl⟩))
        (Nat.zero_le _) hblock

/-- A started write has been handed nothing yet. -/
theorem launched_side {started : Option (List UInt8)}
    (hflight : s.inFlight = (started.map fun buffer => (⟨buffer, 0⟩ : WriteOp)).toList) :
    WriteSide s (NodeWorld.launched started) := by
  cases started with
  | none => exact WriteSide.idle hflight
  | some buffer => exact WriteSide.writing hflight

end Sides

/-! ## The simulation -/

/-- The frame of a message a subscription has delivered. -/
def IsFrameOf (frame : List UInt8) (m : SerialSubscriber × Except StdException (Option MsgObject)) :
    Prop :=
  ∃ serialMsg, (m.1.streamDeserialized.subscribe m.2).2 = .ok serialMsg
    ∧ frame = (framed serialMsg m.1.topicInfo.topicId).bytes

/-- The read buffer of the node is where a run of it alone gets to. -/
structure ReadHalf (env : RosEnv) (w : NodeWorld) (r : ReadWorld Handler (Session Journal))
    (rs : List ReadyHandler) : Prop where
  /-- Whatever arrives later. -/
  runs : ∀ more : List (List UInt8), ∃ wire es, wire.flatten = w.received ++ more.flatten
    ∧ es.filterMap PortEvent.outcome = w.ran.filterMap ReadyHandler.outcome
    ∧ Lts.exec (ReadWorld.step (handle (journalled env))) (startRead .new wire) es
      = some (r.awaiting more)
  session : r.user = w.session
  escaped : r.escaped = w.escaped ∨ r.escaped = none
  side : ReadSide w.reader w.arrived r rs

/-- So is its write buffer. -/
structure WriteHalf (w : NodeWorld) (s : WriteWorld) (ws : List ReadyHandler) : Prop where
  runs : ∃ es, es.filterMap WriteEvent.outcome = w.ran.filterMap ReadyHandler.fate
    ∧ Lts.exec WriteWorld.step .init es = some s
  writer : s.writer = w.writer
  port : s.port = w.port
  packaged : s.packaged = []
  calls : List.Forall₂ IsFrameOf s.calls w.messages
  side : WriteSide s ws

/-- The node is in step with its two sides. -/
def Simulates (env : RosEnv) (w : NodeWorld) (r : ReadWorld Handler (Session Journal))
    (s : WriteWorld) : Prop :=
  ∃ rs ws, w.outstanding.Perm (rs ++ ws) ∧ ReadHalf env w r rs ∧ WriteHalf w s ws

section Halves

variable {env : RosEnv} {w w' : NodeWorld} {r r' : ReadWorld Handler (Session Journal)}
  {s s' : WriteWorld} {rs ws : List ReadyHandler}

theorem ReadHalf.quiet (h : ReadHalf env w r rs) (hesc : w.escaped = none) : r.escaped = none := by
  rcases h.escaped with he | he
  · rw [he, hesc]
  · exact he

/-- The run of the read buffer goes on. -/
theorem ReadHalf.step (h : ReadHalf env w r rs) {e : PortEvent} (he : e ≠ .arrive)
    (hs : r.step (handle (journalled env)) e = some r') (more : List (List UInt8)) :
    ∃ wire es, wire.flatten = w.received ++ more.flatten
      ∧ es.filterMap PortEvent.outcome
        = w.ran.filterMap ReadyHandler.outcome ++ e.outcome.toList
      ∧ Lts.exec (ReadWorld.step (handle (journalled env))) (startRead .new wire) es
        = some (r'.awaiting more) := by
  obtain ⟨wire, es, hwire, houtcome, hx⟩ := h.runs more
  refine ⟨wire, es ++ [e], hwire, ?_, Lts.exec_snoc hx (ReadWorld.awaiting_step hs he more)⟩
  rw [List.filterMap_append, houtcome]
  cases e <;> rfl

/-- A read that is outstanding must get something, and has room for it. -/
theorem ReadHalf.fits (h : ReadHalf env w r rs) {c : Continuation Handler} {off size atLeast : Nat}
    (hio : r.serviceIo = [c]) (hp : ReadWorld.IsPortRead c off size atLeast) :
    0 < atLeast ∧ atLeast ≤ size := by
  obtain ⟨wire, es, -, -, hx⟩ := h.runs []
  have hstart : Hunting (journalled env) Journal.new wire.flatten (startRead .new wire) :=
    Or.inl (ReadWorld.start_follows _ _ wire)
  have hhunt : Hunting (journalled env) Journal.new wire.flatten (r.awaiting []) := by
    refine Lts.exec_invariant ?_ hstart hx
    intro u e u' hI hs
    exact hunting_step hI hs
  rcases hhunt with ⟨used, rest, next, -, -, ht⟩ | ⟨hsilent, -⟩
  · cases ht with
    | waiting _ _ hs hone =>
        obtain rfl := List.singleton_inj.mp (hio.symm.trans hone)
        rcases hp with hp | ⟨hp, -⟩
        · injection hp with h1 h2 h3
          rw [← h2, ← h3]
          exact ⟨Nat.sub_pos_of_lt hs.short, hs.room⟩
        · exact absurd hp (by simp)
    | posted _ _ _ hone _ _ =>
        obtain rfl := List.singleton_inj.mp (hio.symm.trans hone)
        rcases hp with hp | ⟨hp, -⟩ <;> exact absurd hp (by simp)
    | refused _ _ _ hnone => exact absurd (hio.symm.trans hnone) (by simp)
    | ended _ hnone => exact absurd (hio.symm.trans hnone) (by simp)
  · exact absurd (hio.symm.trans hsilent) (by simp)

/-- The read side depends on the node's reader and session only. -/
theorem ReadHalf.of_same (h : ReadHalf env w r rs) (hreceived : w'.received = w.received)
    (hran : w'.ran.filterMap ReadyHandler.outcome = w.ran.filterMap ReadyHandler.outcome)
    (hsession : w'.session = w.session) (hescaped : w'.escaped = w.escaped)
    (hreader : w'.reader = w.reader) (harrived : w'.arrived = w.arrived) : ReadHalf env w' r rs where
  runs := by
    rw [hreceived, hran]
    exact h.runs
  session := h.session.trans hsession.symm
  escaped := by
    rw [hescaped]
    exact h.escaped
  side := by
    rw [hreader, harrived]
    exact h.side

/-- The write side depends on the node's writer and on what it has written only. -/
theorem WriteHalf.of_same (h : WriteHalf w s ws)
    (hran : w'.ran.filterMap ReadyHandler.fate = w.ran.filterMap ReadyHandler.fate)
    (hwriter : w'.writer = w.writer) (hport : w'.port = w.port)
    (hmessages : w'.messages = w.messages) : WriteHalf w' s ws where
  runs := by
    rw [hran]
    exact h.runs
  writer := h.writer.trans hwriter.symm
  port := h.port.trans hport.symm
  packaged := h.packaged
  calls := by
    rw [hmessages]
    exact h.calls
  side := h.side

/-- The run of the write buffer goes on. -/
theorem WriteHalf.step (h : WriteHalf w s ws) {e : WriteEvent} (hs : s.step e = some s') :
    ∃ es, es.filterMap WriteEvent.outcome
        = w.ran.filterMap ReadyHandler.fate ++ e.outcome.toList
      ∧ Lts.exec WriteWorld.step .init es = some s' := by
  obtain ⟨es, houtcome, hx⟩ := h.runs
  refine ⟨es ++ [e], ?_, Lts.exec_snoc hx hs⟩
  rw [List.filterMap_append, houtcome]
  cases e <;> rfl

end Halves

/-! ## Activity at the port -/

section Turns

variable {env : RosEnv} {w w' u : NodeWorld} {r : ReadWorld Handler (Session Journal)}
  {s : WriteWorld}

/-- If no read of the node has failed, its session follows the stream it receives. -/
theorem ReadHalf.follows (h : ReadHalf env w r rs)
    (hwell : ∀ x ∈ w.ran, x.outcome ≠ some .failed) :
    ReadWorld.Follows (handle (journalled env)) readerCapacity
      ({ tables := Journal.new, dispatched := [] }, readAsyncHead) w.received (r.awaiting []) := by
  obtain ⟨wire, es, hwire, houtcomes, hx⟩ := h.runs []
  have hquiet : ∀ e ∈ es, e.isFail = false := by
    intro e he
    cases hfail : e.isFail with
    | false => rfl
    | true =>
        exfalso
        have hlost : ReadOutcome.failed ∈ es.filterMap PortEvent.outcome := by
          refine List.mem_filterMap.mpr ⟨e, he, ?_⟩
          cases e with
          | fail i => rfl
          | arrive => exact absurd hfail (by simp [PortEvent.isFail])
          | transfer i n => exact absurd hfail (by simp [PortEvent.isFail])
          | run i => exact absurd hfail (by simp [PortEvent.isFail])
        rw [houtcomes] at hlost
        obtain ⟨x, hmem, hx⟩ := List.mem_filterMap.mp hlost
        exact hwell x hmem hx
  have hrun : Lts.exec (ReadWorld.quietStep (handle (journalled env))) (startRead .new wire) es
      = some (r.awaiting []) := by
    refine Lts.exec_restrict ?_ hquiet hx
    intro u e he
    unfold ReadWorld.quietStep
    rw [if_neg (by rw [he]; simp)]
  rw [List.flatten_nil, List.append_nil] at hwire
  rw [← hwire]
  exact Lts.exec_invariant (fun _ _ _ hI hs => ReadWorld.step_follows hI hs)
    (ReadWorld.start_follows _ _ wire) hrun

/-- If no write of the node has failed, none of its writer has. -/
theorem WriteHalf.orderly (h : WriteHalf w s ws) (hwell : ∀ x ∈ w.ran, x.fate ≠ some .discarded) :
    s.Orderly := by
  obtain ⟨es, hfates, hx⟩ := h.runs
  have hquiet : ∀ e ∈ es, e.isFail = false := by
    intro e he
    cases hfail : e.isFail with
    | false => rfl
    | true =>
        exfalso
        have hlost : Fate.discarded ∈ es.filterMap WriteEvent.outcome := by
          refine List.mem_filterMap.mpr ⟨e, he, ?_⟩
          cases e with
          | fail i => rfl
          | call serialMsg topicId => exact absurd hfail (by simp [WriteEvent.isFail])
          | lock i => exact absurd hfail (by simp [WriteEvent.isFail])
          | transfer i n => exact absurd hfail (by simp [WriteEvent.isFail])
          | complete i => exact absurd hfail (by simp [WriteEvent.isFail])
        rw [hfates] at hlost
        obtain ⟨x, hmem, hx⟩ := List.mem_filterMap.mp hlost
        exact hwell x hmem hx
  have hclean : Lts.exec WriteWorld.cleanStep .init es = some s := by
    refine Lts.exec_restrict ?_ hquiet hx
    intro u e he
    unfold WriteWorld.cleanStep
    rw [if_neg (by rw [he]; simp)]
  exact Lts.exec_invariant (fun _ _ _ hI hs => WriteWorld.step_orderly hI hs)
    WriteWorld.init_orderly hclean

theorem simulates_arrive {chunk : List UInt8} (h : Simulates env w r s) (hesc : w.escaped = none) :
    Simulates env { w with arrived := w.arrived ++ chunk, received := w.received ++ chunk }
      { r with arrived := r.arrived ++ chunk } s := by
  obtain ⟨rs, ws, hperm, hr, hw⟩ := h
  refine ⟨rs, ws, hperm, ⟨?_, hr.session, hr.escaped, ?_⟩, hw.of_same rfl rfl rfl rfl⟩
  · intro more
    obtain ⟨wire, es, hwire, houtcome, hx⟩ := hr.runs (chunk :: more)
    refine ⟨wire, es ++ [.arrive], ?_, ?_, Lts.exec_snoc hx ?_⟩
    · rw [hwire, List.flatten_cons, List.append_assoc]
    · rw [List.filterMap_append, houtcome]
      exact List.append_nil _
    · unfold ReadWorld.step
      rw [if_neg (by
        show ¬r.escaped.isSome = true
        rw [hr.quiet hesc]
        simp)]
      rfl
  · cases hr.side with
    | silent hio hblock => exact ReadSide.silent hio (hblock.arrive chunk)
    | posted hio hreader harr => exact ReadSide.posted hio hreader (congrArg (· ++ chunk) harr)
    | reading hio hp hoff hle hblock => exact ReadSide.reading hio hp hoff hle (hblock.arrive chunk)
    | failed hio hp hblock => exact ReadSide.failed hio hp (hblock.arrive chunk)

theorem simulates_activity {a : PortActivity} (h : Simulates env w r s) (hesc : w.escaped = none)
    (ha : w.activityStep a = some w') : ∃ r' s', Simulates env w' r' s' := by
  cases a with
  | arrive chunk =>
      obtain rfl := Option.some.inj ha
      exact ⟨_, s, simulates_arrive h hesc⟩
  | receive i n =>
      unfold NodeWorld.activityStep at ha
      dsimp only at ha
      split at ha
      · rename_i off size atLeast got hop
        split at ha
        · rename_i hn
          obtain rfl := Option.some.inj ha
          obtain ⟨rs, ws, hperm, hr, hw⟩ := h
          obtain ⟨rest, hout, hout'⟩ := NodeWorld.outstanding_activity hop
            (.progressed (.read off size atLeast (got ++ w.arrived.take n)))
          obtain ⟨rfl, hrest⟩ := read_part (hout.symm.trans hperm) rfl hr.side hw.side
          refine ⟨r, s, _, ws, put_read hout' hrest,
            ⟨hr.runs, hr.session, hr.escaped, ?_⟩, hw.of_same rfl rfl rfl rfl⟩
          -- on its side, the read still waits: what it has got counts as not taken
          cases hr.side with
          | reading hio hp hoff hle hblock =>
              refine ReadSide.reading hio hp hoff ?_ ⟨?_, ?_⟩
              · rw [List.length_append, List.length_take]
                omega
              · show { w.reader with
                  mem := overwrite w.reader.mem (off + got.length) (w.arrived.take n) } = _
                rw [hblock.reader, hoff]
                dsimp only
                rw [overwrite_overwrite]
              · rw [hblock.arrived, List.append_assoc, List.take_append_drop]
        · exact absurd ha (by simp)
      · exact absurd ha (by simp)
  | take i n =>
      unfold NodeWorld.activityStep at ha
      dsimp only at ha
      split at ha
      · rename_i op hop
        split at ha
        · rename_i hn
          obtain rfl := Option.some.inj ha
          obtain ⟨rs, ws, hperm, hr, hw⟩ := h
          obtain ⟨rest, hout, hout'⟩ := NodeWorld.outstanding_activity hop
            (.progressed (.write { op with sent := op.sent + n }))
          obtain ⟨rfl, hrest⟩ := write_part (hout.symm.trans hperm) rfl hr.side hw.side
          cases hw.side with
          | writing hflight =>
              let s' : WriteWorld := { s with
                inFlight := [{ op with sent := op.sent + n }]
                port := s.port ++ slice op.buffer op.sent n }
              have hs : s.step (.transfer 0 n) = some s' := by
                unfold WriteWorld.step
                dsimp only
                rw [hflight]
                exact if_pos hn
              refine ⟨r, s', rs, _, put_write hout' hrest, hr.of_same rfl rfl rfl rfl rfl rfl,
                ⟨?_, hw.writer, ?_, hw.packaged, hw.calls, WriteSide.writing rfl⟩⟩
              · have hruns := hw.step hs
                simp only [WriteEvent.outcome, Option.toList_none, List.append_nil] at hruns
                exact hruns
              show s.port ++ _ = w.port ++ _
              rw [hw.port]
        · exact absurd ha (by simp)
      · exact absurd ha (by simp)
  | fail i =>
      unfold NodeWorld.activityStep at ha
      dsimp only at ha
      split at ha
      · exact absurd ha (by simp)
      · rename_i op hop
        obtain rfl := Option.some.inj ha
        obtain ⟨rs, ws, hperm, hr, hw⟩ := h
        obtain ⟨rest, hout, hout'⟩ := NodeWorld.outstanding_activity hop (.failed op)
        cases op with
        | read off size atLeast got =>
            obtain ⟨rfl, hrest⟩ := read_part (hout.symm.trans hperm) rfl hr.side hw.side
            refine ⟨r, s, _, ws, put_read hout' hrest,
              ⟨hr.runs, hr.session, hr.escaped, ?_⟩, hw.of_same rfl rfl rfl rfl⟩
            cases hr.side with
            | reading hio hp _ _ hblock => exact ReadSide.failed hio hp hblock
        | write op =>
            obtain ⟨rfl, hrest⟩ := write_part (hout.symm.trans hperm) rfl hr.side hw.side
            refine ⟨r, s, rs, _, put_write hout' hrest, hr.of_same rfl rfl rfl rfl rfl rfl,
              ⟨hw.runs, hw.writer, hw.port, hw.packaged, hw.calls, ?_⟩⟩
            cases hw.side with
            | writing hflight => exact WriteSide.failed hflight

/-! ## Handlers -/

/-- What a callback asks for at its end is asked for on the read side as well. -/
theorem perform_side (next : Next Handler) (hreader : r.reader = u.reader)
    (harr : r.arrived = u.arrived) (hio : r.serviceIo = []) (hesc : r.escaped = u.escaped) :
    ∃ rs, (u.perform next).outstanding.Perm (rs ++ u.outstanding)
      ∧ ReadSide (u.perform next).reader (u.perform next).arrived (r.perform next) rs
      ∧ (r.perform next).escaped = (u.perform next).escaped := by
  cases next with
  | escape f =>
      exact ⟨[], List.Perm.refl _, ReadSide.silent hio (InBlock.of_same hreader harr), rfl⟩
  | read n callback =>
      have hr : r.perform (.read n callback) = { r with
          reader := (u.reader.read n callback).1
          serviceIo := r.serviceIo ++ (u.reader.read n callback).2.toList } := by
        rw [← hreader]
        rfl
      obtain ⟨pending, hsame, hperm⟩ :=
        NodeWorld.startRead_spec { u with reader := (u.reader.read n callback).1 }
          (u.reader.read n callback).2
      have hu : u.perform (.read n callback) = { u with
          reader := (u.reader.read n callback).1
          pending := pending
          ready := u.ready ++ NodeWorld.posts (u.reader.read n callback).2 } := hsame
      refine ⟨NodeWorld.asked (u.reader.read n callback).2, hperm, ?_, ?_⟩
      · rw [hr, hu]
        refine asked_side rfl harr ?_ (read_asksBehind u.reader n callback)
        show r.serviceIo ++ _ = _
        rw [hio, List.nil_append]
      · rw [hr, hu]
        exact hesc

/-- A handler has been taken from the queue, to be run. -/
def NodeWorld.takeReady (w : NodeWorld) (x : ReadyHandler) (ready : List ReadyHandler) : NodeWorld :=
  { w with ready := ready, ran := w.ran ++ [x] }

/-- The read side has settled what the handler stands for. -/
theorem ReadHalf.taken {x : ReadyHandler} {rs : List ReadyHandler} {e : PortEvent}
    {r' : ReadWorld Handler (Session Journal)} (h : ReadHalf env w r rs) (he : e ≠ .arrive)
    (hx : e.outcome = x.outcome) (hs : r.step (handle (journalled env)) e = some r')
    (more : List (List UInt8)) :
    ∃ wire es, wire.flatten = w.received ++ more.flatten
      ∧ es.filterMap PortEvent.outcome = (w.ran ++ [x]).filterMap ReadyHandler.outcome
      ∧ Lts.exec (ReadWorld.step (handle (journalled env))) (startRead .new wire) es
        = some (r'.awaiting more) := by
  have hruns := h.step he hs more
  rw [List.filterMap_append]
  have hone : [x].filterMap ReadyHandler.outcome = e.outcome.toList := by
    rw [hx, List.filterMap_cons]
    cases x.outcome <;> rfl
  rw [hone]
  exact hruns

theorem WriteHalf.taken {x : ReadyHandler} {ws : List ReadyHandler} {e : WriteEvent}
    {s' : WriteWorld} (h : WriteHalf w s ws) (hx : e.outcome = x.fate) (hs : s.step e = some s') :
    ∃ es, es.filterMap WriteEvent.outcome = (w.ran ++ [x]).filterMap ReadyHandler.fate
      ∧ Lts.exec WriteWorld.step .init es = some s' := by
  have hruns := h.step hs
  rw [List.filterMap_append]
  have hone : [x].filterMap ReadyHandler.fate = e.outcome.toList := by
    rw [hx, List.filterMap_cons]
    cases x.fate <;> rfl
  rw [hone]
  exact hruns

/-- The read side runs its posted callback. -/
theorem simulates_posted {callback : Option Handler} {off len : Nat} {ready ws : List ReadyHandler}
    (hr : ReadHalf env w r [.posted callback off len]) (hesc : w.escaped = none)
    (hw : WriteHalf (w.takeReady (.posted callback off len) ready) s ws)
    (hperm : (w.takeReady (.posted callback off len) ready).outstanding.Perm ws) :
    ∃ r' s', Simulates env
        ((w.takeReady (.posted callback off len) ready).runPosted env callback off len) r' s'
      ∧ r'.escaped
        = ((w.takeReady (.posted callback off len) ready).runPosted env callback off len).escaped := by
  let u := w.takeReady (.posted callback off len) ready
  have hquiet := hr.quiet hesc
  cases hr.side with
  | posted hio hreader harr =>
      have hs : r.step (handle (journalled env)) (.run 0)
          = some ((r.take 0).runPosted (handle (journalled env)) callback off len) := by
        unfold ReadWorld.step
        rw [if_neg (by rw [hquiet]; simp), hio]
        rfl
      have hio' : (r.take 0).serviceIo = [] := by
        show r.serviceIo.eraseIdx 0 = []
        rw [hio]
        rfl
      have hruns := hr.taken (x := .posted callback off len) (by simp) rfl hs
      cases callback with
      | none =>
          exact ⟨_, s, ⟨[], ws, hperm, ⟨hruns, hr.session, Or.inl rfl,
            ReadSide.silent hio' (InBlock.of_same hreader harr)⟩, hw.of_same rfl rfl rfl rfl⟩, rfl⟩
      | some k =>
          let out := handle (journalled env) k u.session (ofBuffer (slice u.reader.mem off len))
          have hr' : (r.take 0).runPosted (handle (journalled env)) (some k) off len
              = { r.take 0 with user := out.1 }.perform out.2 := by
            show ReadWorld.perform { r.take 0 with
                user := (handle (journalled env) k r.user (ofBuffer (slice r.reader.mem off len))).1 }
              (handle (journalled env) k r.user (ofBuffer (slice r.reader.mem off len))).2 = _
            rw [hr.session, hreader]
            rfl
          have hu' : u.runPosted env (some k) off len = { u with session := out.1 }.perform out.2 :=
            rfl
          rw [hr'] at hruns
          rw [hu']
          obtain ⟨rs, hperm', hside, hescaped⟩ := perform_side
            (u := { u with session := out.1 }) (r := { r.take 0 with user := out.1 }) out.2
            hreader harr hio' (hquiet.trans hesc.symm)
          obtain ⟨c, reader, pending, escaped, hsame, -⟩ :=
            NodeWorld.perform_spec { u with session := out.1 } out.2
          refine ⟨_, s, ⟨rs, ws, hperm'.trans (hperm.append_left rs),
            ⟨?_, ?_, Or.inl hescaped, hside⟩, ?_⟩, hescaped⟩
          · rw [hsame]
            exact hruns
          · rw [ReadWorld.perform_user, hsame]
          · rw [hsame]
            exact hw.of_same rfl rfl rfl rfl

/-- The read side completes its read, with all that the node's has got. -/
theorem simulates_readDone {off size atLeast : Nat} {got : List UInt8} {ws : List ReadyHandler}
    (hr : ReadHalf env u r [.progressed (.read off size atLeast got)]) (hesc : u.escaped = none)
    (hdone : ¬(got.length < atLeast ∧ got.length < size)) (hw : WriteHalf u s ws)
    (hperm : u.outstanding.Perm ws) :
    ∃ r' s', Simulates env (u.readCallback false got.length) r' s' := by
  have hquiet := hr.quiet hesc
  cases hr.side with
  | @reading c _ _ _ _ hio hp hoff hle hblock =>
      obtain ⟨-, hfits⟩ := hr.fits hio hp
      have hlen : got.length ≤ r.arrived.length := by
        rw [hblock.arrived, List.length_append]
        omega
      have hguard : atLeast ≤ got.length ∧ got.length ≤ size ∧ got.length ≤ r.arrived.length := by
        omega
      have hs : r.step (handle (journalled env)) (.transfer 0 got.length)
          = some ((r.take 0).complete off got.length) := by
        unfold ReadWorld.step
        rw [if_neg (by rw [hquiet]; simp), hio]
        rcases hp with rfl | ⟨rfl, rfl⟩
        · exact if_pos hguard
        · exact if_pos hguard
      -- the bytes it takes out of the port now are those the node has in the block already
      let r' : ReadWorld Handler (Session Journal) := { r with
        reader := (u.reader.readCallback false got.length).1
        serviceIo := (u.reader.readCallback false got.length).2.toList
        arrived := u.arrived }
      have hr' : (r.take 0).complete off got.length = r' := by
        unfold ReadWorld.complete ReadWorld.take
        dsimp only
        rw [hio, hoff, hblock.arrived, List.take_left, List.drop_left, ← hblock.reader]
        rfl
      obtain ⟨pending, hsame, hperm'⟩ :=
        NodeWorld.startRead_spec { u with reader := (u.reader.readCallback false got.length).1 }
          (u.reader.readCallback false got.length).2
      have hu' : u.readCallback false got.length = { u with
          reader := (u.reader.readCallback false got.length).1
          pending := pending
          ready := u.ready ++ NodeWorld.posts (u.reader.readCallback false got.length).2 } := hsame
      have hruns := hr.step (by simp) hs
      simp only [PortEvent.outcome, Option.toList_none, List.append_nil] at hruns
      rw [hr'] at hruns
      refine ⟨r', s, NodeWorld.asked (u.reader.readCallback false got.length).2, ws, ?_,
        ⟨?_, ?_, ?_, ?_⟩, ?_⟩
      · exact hperm'.trans (hperm.append_left _)
      · rw [hu']
        exact hruns
      · rw [hu']
        exact hr.session
      · rw [hu']
        exact hr.escaped
      · rw [hu']
        exact asked_side rfl rfl rfl (readCallback_asksBehind u.reader false got.length)
      · rw [hu']
        exact hw.of_same rfl rfl rfl rfl

theorem simulates_readFailed {off size atLeast : Nat} {got : List UInt8}
    {ready ws : List ReadyHandler}
    (hr : ReadHalf env w r [.failed (.read off size atLeast got)]) (hesc : w.escaped = none)
    (hw : WriteHalf (w.takeReady (.failed (.read off size atLeast got)) ready) s ws)
    (hperm : (w.takeReady (.failed (.read off size atLeast got)) ready).outstanding.Perm ws) :
    ∃ r' s', Simulates env
      ((w.takeReady (.failed (.read off size atLeast got)) ready).readCallback true 0) r' s' := by
  have hquiet := hr.quiet hesc
  cases hr.side with
  | failed hio hp hblock =>
      have hs : r.step (handle (journalled env)) (.fail 0) = some (r.take 0).failRead := by
        unfold ReadWorld.step
        rw [if_neg (by rw [hquiet]; simp), hio]
        rcases hp with rfl | ⟨rfl, -⟩
        · rfl
        · rfl
      have hruns := hr.taken (x := .failed (.read off size atLeast got)) (by simp) rfl hs
      refine ⟨_, s, [], ws, hperm, ⟨hruns, hr.session, hr.escaped, ?_⟩, hw.of_same rfl rfl rfl rfl⟩
      refine ReadSide.silent ?_ ⟨?_, hblock.arrived⟩
      · show r.serviceIo.eraseIdx 0 ++ [] = []
        rw [hio]
        rfl
      · show { w.reader with readRequestedBytes := 0 } = _
        rw [hblock.reader]
        rfl

theorem simulates_writeDone {op : WriteOp} {ready rs : List ReadyHandler}
    (hr : ReadHalf env (w.takeReady (.progressed (.write op)) ready) r rs)
    (hw : WriteHalf w s [.progressed (.write op)]) (hdone : ¬op.sent < op.buffer.length)
    (hperm : (w.takeReady (.progressed (.write op)) ready).outstanding.Perm rs) :
    ∃ r' s', Simulates env
      ((w.takeReady (.progressed (.write op)) ready).writeEcCallback false) r' s' := by
  let u := w.takeReady (.progressed (.write op)) ready
  cases hw.side with
  | writing hflight =>
      obtain ⟨es, -, hx⟩ := hw.runs
      have hserial := WriteWorld.serial_reachable hx
      have hsent := (WriteWorld.serial_inFlight (i := 0) hserial (by rw [hflight]; rfl)).2.2.1
      let s' : WriteWorld := { s with
        writer := (s.writer.writeEcCallback false).1
        inFlight := []
        settled := s.settled ++ (s.writer.sendBufs.take 1).map fun frame =>
          (frame, Fate.delivered) }.launch (s.writer.writeEcCallback false).2
      have hs : s.step (.complete 0) = some s' := by
        unfold WriteWorld.step
        dsimp only
        rw [hflight]
        exact if_pos (Nat.le_antisymm hsent (Nat.le_of_not_lt hdone))
      obtain ⟨pending, hsame, hperm'⟩ :=
        NodeWorld.startWrite_spec { u with writer := (u.writer.writeEcCallback false).1 }
          (u.writer.writeEcCallback false).2
      have hu' : u.writeEcCallback false
          = { u with writer := (u.writer.writeEcCallback false).1, pending := pending } := hsame
      have hruns := hw.taken (x := .progressed (.write op)) (if_neg hdone).symm hs
      refine ⟨r, s', rs, NodeWorld.launched (u.writer.writeEcCallback false).2, ?_, ?_,
        ⟨?_, ?_, ?_, hw.packaged, ?_, ?_⟩⟩
      · exact (hperm'.trans (hperm.append_left _)).trans List.perm_append_comm
      · rw [hu']
        exact hr.of_same rfl rfl rfl rfl rfl rfl
      · rw [hu']
        exact hruns
      · rw [hu']
        show _ = (w.writer.writeEcCallback false).1
        rw [← hw.writer]
        rfl
      · rw [hu']
        exact hw.port
      · rw [hu']
        exact hw.calls
      · refine launched_side ?_
        show _ = ((w.writer.writeEcCallback false).2.map _).toList
        rw [← hw.writer]
        rfl

theorem simulates_writeFailed {op : WriteOp} {ready rs : List ReadyHandler}
    (hr : ReadHalf env (w.takeReady (.failed (.write op)) ready) r rs)
    (hw : WriteHalf w s [.failed (.write op)])
    (hperm : (w.takeReady (.failed (.write op)) ready).outstanding.Perm rs) :
    ∃ r' s',
      Simulates env ((w.takeReady (.failed (.write op)) ready).writeEcCallback true) r' s' := by
  let u := w.takeReady (.failed (.write op)) ready
  cases hw.side with
  | failed hflight =>
      let s' : WriteWorld := { s with
        writer := (s.writer.writeEcCallback true).1
        inFlight := []
        settled := s.settled ++ s.writer.sendBufs.map fun frame =>
          (frame, Fate.discarded) }.launch (s.writer.writeEcCallback true).2
      have hs : s.step (.fail 0) = some s' := by
        unfold WriteWorld.step
        dsimp only
        rw [hflight]
        rfl
      have hu' : u.writeEcCallback true = { u with writer := ⟨[]⟩ } := by
        show NodeWorld.startWrite { u with writer := ⟨[]⟩ } none = _
        unfold NodeWorld.startWrite
        rw [Option.map_none, Option.toList_none, List.append_nil]
      have hruns := hw.taken (x := .failed (.write op)) rfl hs
      refine ⟨r, s', rs, [], ?_, ?_, ⟨?_, ?_, ?_, hw.packaged, ?_, WriteSide.idle rfl⟩⟩
      · rw [hu', List.append_nil]
        exact hperm
      · rw [hu']
        exact hr.of_same rfl rfl rfl rfl rfl rfl
      · rw [hu']
        exact hruns
      · rw [hu']
        rfl
      · rw [hu']
        exact hw.port
      · rw [hu']
        exact hw.calls

/-! ## Every turn -/

theorem Simulates.quiet (h : Simulates env w r s) (hesc : w.escaped = none) : r.escaped = none := by
  obtain ⟨rs, ws, -, hr, -⟩ := h
  exact hr.quiet hesc

theorem Simulates.settle (h : Simulates env w r s) : Simulates env w.settle r s := by
  obtain ⟨rs, ws, hperm, hr, hw⟩ := h
  obtain ⟨stopped, hsame, -⟩ := NodeWorld.settle_spec w
  rw [hsame]
  exact ⟨rs, ws, hperm, hr.of_same rfl rfl rfl rfl rfl rfl, hw.of_same rfl rfl rfl rfl⟩

theorem simulates_handler {x : ReadyHandler} {ready : List ReadyHandler} (h : Simulates env w r s)
    (hesc : w.escaped = none) (hready : w.ready = x :: ready) :
    ∃ r' s', Simulates env ({ w with ready := ready, ran := w.ran ++ [x] }.runHandler env x) r' s'
      ∧ r'.escaped = ({ w with ready := ready, ran := w.ran ++ [x] }.runHandler env x).escaped := by
  obtain ⟨rs, ws, hperm, hr, hw⟩ := h
  let u := w.takeReady x ready
  have hout : (x :: u.outstanding).Perm (rs ++ ws) :=
    (NodeWorld.outstanding_ready hready).symm.trans hperm
  -- what does not end anything on the read side leaves it where it is
  have hru : x.outcome = none → ReadHalf env u r rs := by
    intro hx
    refine hr.of_same rfl ?_ rfl rfl rfl rfl
    show (w.ran ++ [x]).filterMap ReadyHandler.outcome = _
    rw [List.filterMap_append, List.filterMap_cons_none hx, List.filterMap_nil, List.append_nil]
  have hwu : x.fate = none → WriteHalf u s ws := by
    intro hx
    refine hw.of_same ?_ rfl rfl rfl
    show (w.ran ++ [x]).filterMap ReadyHandler.fate = _
    rw [List.filterMap_append, List.filterMap_cons_none hx, List.filterMap_nil, List.append_nil]
  show ∃ r' s', Simulates env (u.runHandler env x) r' s' ∧ r'.escaped = (u.runHandler env x).escaped
  -- nothing else than a callback can end anything
  have hgoes : x.isPosted = false → (∃ r' s', Simulates env (u.runHandler env x) r' s') →
      ∃ r' s', Simulates env (u.runHandler env x) r' s'
        ∧ r'.escaped = (u.runHandler env x).escaped := by
    rintro hx ⟨r', s', h'⟩
    have hnone : (u.runHandler env x).escaped = none := by
      obtain ⟨c, reader, writer, session, pending, escaped, hsame, -, -, -, hgoes⟩ :=
        NodeWorld.runHandler_spec env u x
      rw [hsame]
      exact (hgoes hx).trans hesc
    exact ⟨r', s', h', (h'.quiet hnone).trans hnone.symm⟩
  cases x with
  | posted callback off len =>
      obtain ⟨rfl, hrest⟩ := read_part hout rfl hr.side hw.side
      exact simulates_posted hr hesc (hwu rfl) hrest
  | progressed op =>
      refine hgoes rfl ?_
      cases op with
      | read off size atLeast got =>
          obtain ⟨rfl, hrest⟩ := read_part hout rfl hr.side hw.side
          by_cases hmore : got.length < atLeast ∧ got.length < size
          · -- the operation asks again: its side has not moved
            have hagain : u.runHandler env (.progressed (.read off size atLeast got))
                = { u with pending := u.pending ++ [.read off size atLeast got] } := if_pos hmore
            rw [hagain]
            exact ⟨r, s, _, ws, put_read (NodeWorld.outstanding_pend u _) hrest,
              (hru rfl).of_same rfl rfl rfl rfl rfl rfl, (hwu rfl).of_same rfl rfl rfl rfl⟩
          · have hdone : u.runHandler env (.progressed (.read off size atLeast got))
                = u.readCallback false got.length := if_neg hmore
            rw [hdone]
            exact simulates_readDone (hru rfl) hesc hmore (hwu rfl) hrest
      | write op =>
          obtain ⟨rfl, hrest⟩ := write_part hout rfl hr.side hw.side
          by_cases hmore : op.sent < op.buffer.length
          · have hagain : u.runHandler env (.progressed (.write op))
                = { u with pending := u.pending ++ [.write op] } := if_pos hmore
            rw [hagain]
            exact ⟨r, s, rs, _, put_write (NodeWorld.outstanding_pend u _) hrest,
              (hru rfl).of_same rfl rfl rfl rfl rfl rfl,
              (hwu (if_pos hmore)).of_same rfl rfl rfl rfl⟩
          · have hdone : u.runHandler env (.progressed (.write op)) = u.writeEcCallback false :=
              if_neg hmore
            rw [hdone]
            exact simulates_writeDone (hru rfl) hw hmore hrest
  | failed op =>
      refine hgoes rfl ?_
      cases op with
      | read off size atLeast got =>
          obtain ⟨rfl, hrest⟩ := read_part hout rfl hr.side hw.side
          exact simulates_readFailed hr hesc (hwu rfl) hrest
      | write op =>
          obtain ⟨rfl, hrest⟩ := write_part hout rfl hr.side hw.side
          exact simulates_writeFailed (hru rfl) hw hrest

/-- What a subscription frames is what `write_to_serial` queues. -/
theorem callback_enqueues {sub : SerialSubscriber}
    {deserialized : Except StdException (Option MsgObject)} {serialMsg : WriteBuffer}
    (hsub : (sub.streamDeserialized.subscribe deserialized).2 = .ok serialMsg)
    (writter : AsyncWriteBuffer) :
    ∃ writeBuf, packagingMsg serialMsg sub.topicInfo.topicId = .ok writeBuf
      ∧ writeBuf.getVector = (framed serialMsg sub.topicInfo.topicId).bytes
      ∧ sub.callback deserialized writter = .ok (writter.enqueue writeBuf.getVector) := by
  obtain ⟨writeBuf, hpack, hbytes⟩ := packagingMsg_spec serialMsg sub.topicInfo.topicId
  refine ⟨writeBuf, hpack, hbytes, ?_⟩
  unfold SerialSubscriber.callback AsyncWriteBuffer.writeToSerial
  rw [hsub, Outcome.ok_bind, hpack, Outcome.ok_bind]
  rfl

/-- Queueing a frame starts its write when no write is outstanding, and no other. -/
theorem queued_side {payload : List UInt8} {started : Option (List UInt8)} {s' : WriteWorld}
    {ws : List ReadyHandler} (hserial : WriteWorld.Serial s.writer.sendBufs s.inFlight)
    (hside : WriteSide s ws) (hstarted : (s.writer.enqueue payload).2 = started)
    (hflight : s'.inFlight = s.inFlight ++ (started.map fun buffer => (⟨buffer, 0⟩ : WriteOp)).toList) :
    WriteSide s' (ws ++ NodeWorld.launched started) := by
  have hbusy : s.writer.sendBufs.isEmpty = false → started = none := by
    intro hne
    rw [← hstarted]
    unfold AsyncWriteBuffer.enqueue
    rw [hne]
    rfl
  cases hside with
  | idle hidle =>
      rw [hidle, List.nil_append] at hflight
      exact launched_side hflight
  | @writing op hone =>
      rw [hone] at hserial hflight
      obtain ⟨-, -, -, rest, hbufs⟩ := WriteWorld.serial_inFlight (i := 0) hserial rfl
      obtain rfl := hbusy (by rw [hbufs]; rfl)
      exact WriteSide.writing hflight
  | @failed op hone =>
      rw [hone] at hserial hflight
      obtain ⟨-, -, -, rest, hbufs⟩ := WriteWorld.serial_inFlight (i := 0) hserial rfl
      obtain rfl := hbusy (by rw [hbufs]; rfl)
      exact WriteSide.failed hflight

theorem simulates_message {topicId : UInt16} {deserialized : Except StdException (Option MsgObject)}
    (h : Simulates env w r s) (hesc : w.escaped = none)
    (hm : w.message topicId deserialized = some w') : ∃ r' s', Simulates env w' r' s' := by
  obtain ⟨rs, ws, hperm, hr, hw⟩ := h
  unfold NodeWorld.message at hm
  split at hm
  · exact absurd hm (by simp)
  · rename_i sub _
    cases hsub : (sub.streamDeserialized.subscribe deserialized).2 with
    | error f =>
        rw [callback_of_failure hsub] at hm
        obtain rfl := Option.some.inj hm
        exact ⟨r, s, rs, ws, hperm, ⟨hr.runs, hr.session, Or.inr (hr.quiet hesc), hr.side⟩,
          hw.of_same rfl rfl rfl rfl⟩
    | ok serialMsg =>
        obtain ⟨writeBuf, hpack, hbytes, hcall⟩ := callback_enqueues hsub w.writer
        obtain ⟨writer, started, hqueued⟩ :
            ∃ writer started, w.writer.enqueue writeBuf.getVector = (writer, started) :=
          ⟨_, _, rfl⟩
        rw [hcall, hqueued] at hm
        obtain rfl := Option.some.inj hm
        obtain ⟨es, houtcome, hx⟩ := hw.runs
        let s' : WriteWorld := { s with
          writer := writer
          packaged := []
          calls := s.calls ++ [writeBuf.getVector] }.launch started
        -- the caller frames its message, and takes the lock at once
        have hcalled : s.step (.call serialMsg sub.topicInfo.topicId)
            = some { s with packaged := [writeBuf.getVector] } := by
          unfold WriteWorld.step
          dsimp only
          rw [hpack, hw.packaged]
          rfl
        have hlocked : WriteWorld.step { s with packaged := [writeBuf.getVector] } (.lock 0)
            = some s' := by
          unfold WriteWorld.step
          dsimp only [List.getElem?_cons_zero]
          rw [hw.writer, hqueued]
          rfl
        have hside : WriteSide s' (ws ++ NodeWorld.launched started) := by
          have hstarted : (s.writer.enqueue writeBuf.getVector).2 = started := by
            rw [hw.writer, hqueued]
          exact queued_side (WriteWorld.serial_reachable hx) hw.side hstarted rfl
        obtain ⟨pending, hsame, hperm'⟩ := NodeWorld.startWrite_spec
          { w with writer := writer, messages := w.messages ++ [(sub, deserialized)] } started
        refine ⟨r, s', rs, ws ++ NodeWorld.launched started, ?_, ?_,
          ⟨⟨_, ?_, Lts.exec_snoc (Lts.exec_snoc hx hcalled) hlocked⟩, ?_, ?_, rfl, ?_, hside⟩⟩
        · refine hperm'.trans ?_
          rw [← List.append_assoc]
          exact (hperm.append_left _).trans List.perm_append_comm
        · rw [hsame]
          exact hr.of_same rfl rfl rfl rfl rfl rfl
        · rw [hsame, List.filterMap_append, List.filterMap_append, houtcome]
          simp only [List.filterMap_cons, WriteEvent.outcome, List.filterMap_nil, List.append_nil]
        · rw [hsame]
          rfl
        · rw [hsame]
          exact hw.port
        · rw [hsame]
          exact List.rel_append hw.calls
            (List.Forall₂.cons ⟨serialMsg, hsub, hbytes⟩ List.Forall₂.nil)

/-- Whatever a turn ends the node with has ended the read side. -/
theorem simulates_turn (h : Simulates env w r s) (hesc : w.escaped = none)
    (ht : NodeWorld.Turn env w w') :
    ∃ r' s', Simulates env w' r' s' ∧ r'.escaped = w'.escaped := by
  cases ht with
  | activity ha =>
      obtain ⟨r', s', h'⟩ := simulates_activity h hesc ha
      have hnone := (NodeWorld.activityStep_escaped ha).trans hesc
      exact ⟨r', s', h', (h'.quiet hnone).trans hnone.symm⟩
  | @handler x ready hstopped hready =>
      obtain ⟨r', s', h', hsame⟩ := simulates_handler h hesc hready
      refine ⟨r', s', h'.settle, ?_⟩
      obtain ⟨stopped, hsettle, -⟩ :=
        NodeWorld.settle_spec ({ w with ready := ready, ran := w.ran ++ [x] }.runHandler env x)
      rw [hsettle]
      exact hsame
  | idle _ =>
      obtain ⟨stopped, hsettle, -⟩ := NodeWorld.settle_spec w
      refine ⟨r, s, h.settle, ?_⟩
      rw [hsettle]
      exact (h.quiet hesc).trans hesc.symm
  | restart =>
      have hquiet := h.quiet hesc
      obtain ⟨rs, ws, hperm, hr, hw⟩ := h
      exact ⟨r, s, ⟨rs, ws, hperm, hr.of_same rfl rfl rfl rfl rfl rfl, hw.of_same rfl rfl rfl rfl⟩,
        hquiet.trans hesc.symm⟩

/-- The node starts where the session's read side does, with its first read started. -/
theorem simulates_start (env : RosEnv) :
    Simulates env NodeWorld.start (startRead Journal.new []) WriteWorld.init := by
  let r : ReadWorld Handler (Session Journal) :=
    { reader := .new readerCapacity, serviceIo := [], user := ⟨Journal.new, []⟩, escaped := none
      arrived := [], wire := [] }
  let u : NodeWorld :=
    { reader := .new readerCapacity, writer := ⟨[]⟩
      session := { tables := .new, dispatched := [] }
      pending := [], ready := [], stopped := false, escaped := none
      arrived := [], received := [], port := [], ran := [], messages := [] }
  obtain ⟨rs, hperm, hside, hescaped⟩ := perform_side (u := u) (r := r) readAsyncHead rfl rfl rfl rfl
  obtain ⟨c, reader, pending, escaped, hsame, -⟩ := NodeWorld.perform_spec u readAsyncHead
  refine ⟨rs, [], hperm, ⟨?_, ?_, Or.inl hescaped, hside⟩,
    ⟨⟨[], ?_, rfl⟩, ?_, ?_, rfl, ?_, WriteSide.idle rfl⟩⟩
  · intro more
    refine ⟨more, [], ?_, ?_, ?_⟩
    · show _ = (u.perform readAsyncHead).received ++ _
      rw [hsame]
      rfl
    · show _ = (u.perform readAsyncHead).ran.filterMap _
      rw [hsame]
      rfl
    · exact congrArg some (ReadWorld.awaiting_perform r more readAsyncHead)
  · show (r.perform readAsyncHead).user = (u.perform readAsyncHead).session
    rw [ReadWorld.perform_user, hsame]
  · show _ = (u.perform readAsyncHead).ran.filterMap _
    rw [hsame]
    rfl
  · show _ = (u.perform readAsyncHead).writer
    rw [hsame]
    rfl
  · show _ = (u.perform readAsyncHead).port
    rw [hsame]
    rfl
  · show List.Forall₂ _ _ (u.perform readAsyncHead).messages
    rw [hsame]
    exact List.Forall₂.nil

theorem simulates_reachable {es : List NodeEvent}
    (hx : Lts.exec (NodeWorld.step env) .start es = some w) : ∃ r s, Simulates env w r s := by
  refine NodeWorld.node_invariant (I := fun w => ∃ r s, Simulates env w r s) ?_ ?_
    ⟨_, _, simulates_start env⟩ hx
  · rintro u u' hesc ⟨r, s, h⟩ ht
    obtain ⟨r', s', h', -⟩ := simulates_turn h hesc ht
    exact ⟨r', s', h'⟩
  · rintro u u' topicId deserialized hesc ⟨r, s, h⟩ hm
    exact simulates_message h hesc hm

/-- **The invariant rule of the node, with its two sides at hand.** -/
theorem simulated_invariant {I : NodeWorld → Prop}
    (hturn : ∀ u u' r s, Simulates env u r s → I u → NodeWorld.Turn env u u' → I u')
    (hmessage : ∀ u u' r s topicId deserialized, Simulates env u r s → I u →
      u.message topicId deserialized = some u' → I u') {es : List NodeEvent} (hI : I .start)
    (hx : Lts.exec (NodeWorld.step env) .start es = some w) : I w := by
  have hboth : (∃ r s, Simulates env w r s) ∧ I w := by
    refine NodeWorld.node_invariant (I := fun w => (∃ r s, Simulates env w r s) ∧ I w) ?_ ?_
      ⟨⟨_, _, simulates_start env⟩, hI⟩ hx
    · rintro u u' hesc ⟨⟨r, s, h⟩, hu⟩ ht
      obtain ⟨r', s', h', -⟩ := simulates_turn h hesc ht
      exact ⟨⟨r', s', h'⟩, hturn u u' r s h hu ht⟩
    · rintro u u' topicId deserialized hesc ⟨⟨r, s, h⟩, hu⟩ hm
      exact ⟨simulates_message h hesc hm, hmessage u u' r s topicId deserialized h hu hm⟩
  exact hboth.2

end Turns

/-- Of a list in two parts, the part is what is of its kind. -/
theorem filter_part {p : ReadyHandler → Bool} {out xs ys : List ReadyHandler}
    (hperm : out.Perm (xs ++ ys)) (hlen : xs.length ≤ 1) (hxs : ∀ x ∈ xs, p x = true)
    (hys : ∀ y ∈ ys, p y = false) : out.filter p = xs := by
  have hfilter : (out.filter p).Perm xs := by
    have hparts := hperm.filter p
    have hnone : ys.filter p = [] := List.filter_eq_nil_iff.mpr (by simpa using hys)
    rwa [List.filter_append, List.filter_eq_self.mpr hxs, hnone, List.append_nil] at hparts
  match xs, hlen with
  | [], _ => exact hfilter.eq_nil
  | [x], _ => exact hfilter.eq_singleton

/--
**The node is its read buffer and its write buffer, side by side.** In every state it can
reach, its session and its read buffer are where a run of the read buffer gets with the bytes
received so far, and its queue and its port are where a run of the write buffer gets with the
frames of the messages delivered so far. The bytes `got` that a read has been given without
completing are in the block already, and in that run still in the port. What ended on either side
are the handlers that were run, in that order; what is outstanding of each side is what the
run has outstanding, and no more than one thing.
-/
theorem node_refines (env : RosEnv) (es : List NodeEvent) (w : NodeWorld)
    (hx : Lts.exec (NodeWorld.step env) .start es = some w) :
    (∃ wire events r got, wire.flatten = w.received
      ∧ events.filterMap PortEvent.outcome = w.ran.filterMap ReadyHandler.outcome
      ∧ Lts.exec (ReadWorld.step (handle (journalled env))) (startRead Journal.new wire) events
        = some r
      ∧ r.user = w.session ∧ (r.escaped = w.escaped ∨ r.escaped = none)
      ∧ w.reader = { r.reader with mem := overwrite r.reader.mem r.reader.writeIndex got }
      ∧ r.arrived = got ++ w.arrived
      ∧ ReadSide w.reader w.arrived r (w.outstanding.filter ReadyHandler.ofRead))
    ∧ (∃ events s, events.filterMap WriteEvent.outcome = w.ran.filterMap ReadyHandler.fate
      ∧ Lts.exec WriteWorld.step .init events = some s
      ∧ s.writer = w.writer ∧ s.port = w.port ∧ s.packaged = []
      ∧ List.Forall₂ IsFrameOf s.calls w.messages
      ∧ WriteSide s (w.outstanding.filter fun h => !h.ofRead))
    ∧ (w.outstanding.filter ReadyHandler.ofRead).length ≤ 1
    ∧ (w.outstanding.filter fun h => !h.ofRead).length ≤ 1 := by
  obtain ⟨r, s, rs, ws, hperm, hr, hw⟩ := simulates_reachable hx
  obtain ⟨wire, events, hwire, houtcome, hread⟩ := hr.runs []
  obtain ⟨writes, hfates, hwrite⟩ := hw.runs
  rw [List.flatten_nil, List.append_nil] at hwire
  obtain ⟨hrlen, hrs⟩ := hr.side.shape
  obtain ⟨hwlen, hws⟩ := hw.side.shape
  obtain ⟨got, hblock⟩ := hr.side.inBlock
  have hreads : w.outstanding.filter ReadyHandler.ofRead = rs := filter_part hperm hrlen hrs hws
  have hwrites : (w.outstanding.filter fun h => !h.ofRead) = ws :=
    filter_part (hperm.trans List.perm_append_comm) hwlen (by simpa using hws) (by simpa using hrs)
  rw [hreads, hwrites]
  exact ⟨⟨wire, events, r.awaiting [], got, hwire, houtcome, hread, hr.session, hr.escaped,
      hblock.reader, hblock.arrived, hr.side.awaiting []⟩,
    ⟨writes, s, hfates, hwrite, hw.writer, hw.port, hw.packaged, hw.calls, hw.side⟩, hrlen, hwlen⟩

/--
A subscription is registered, a message for it is framed and the port takes three bytes of the
frame; of three bytes that arrive then, the next read has been given two.
-/
theorem node_refines_frame :
    ∃ w, Lts.exec (NodeWorld.step (dataEnv .boolean 1)) .start
        [.port (.arrive subscribePacket.bytes), .port (.receive 0 31), .tick [],
          .message 101 (.ok (some [[.raw [1]]])), .port (.take 1 3),
          .port (.arrive [0xFF, 0xFE, 1]), .port (.receive 0 2)] = some w
      ∧ w.session.dispatched.length = 1 ∧ w.port = [0xFF, 0xFE, 1] ∧ w.arrived = [1]
      ∧ w.outstanding.length = 2
      ∧ (∃ wire events r got, wire.flatten = w.received
        ∧ events.filterMap PortEvent.outcome = w.ran.filterMap ReadyHandler.outcome
        ∧ Lts.exec (ReadWorld.step (handle (journalled (dataEnv .boolean 1))))
          (startRead Journal.new wire) events = some r
        ∧ r.user = w.session ∧ (r.escaped = w.escaped ∨ r.escaped = none)
        ∧ w.reader = { r.reader with mem := overwrite r.reader.mem r.reader.writeIndex got }
        ∧ r.arrived = got ++ w.arrived
        ∧ ReadSide w.reader w.arrived r (w.outstanding.filter ReadyHandler.ofRead))
      ∧ ∃ events s, events.filterMap WriteEvent.outcome = w.ran.filterMap ReadyHandler.fate
        ∧ Lts.exec WriteWorld.step .init events = some s
        ∧ s.writer = w.writer ∧ s.port = w.port ∧ s.packaged = []
        ∧ List.Forall₂ IsFrameOf s.calls w.messages
        ∧ WriteSide s (w.outstanding.filter fun h => !h.ofRead) := by
  have hrun : (Lts.exec (NodeWorld.step (dataEnv .boolean 1)) .start
        [.port (.arrive subscribePacket.bytes), .port (.receive 0 31), .tick [],
          .message 101 (.ok (some [[.raw [1]]])), .port (.take 1 3),
          .port (.arrive [0xFF, 0xFE, 1]), .port (.receive 0 2)]).map
      (fun w => (w.session.dispatched.length, w.port, w.arrived, w.outstanding.length))
      = some (1, [0xFF, 0xFE, 1], [1], 2) := by
    decide +kernel
  obtain ⟨w, hx, hends⟩ := Option.map_eq_some_iff.mp hrun
  obtain ⟨hdispatched, hrest⟩ := Prod.mk.inj hends
  obtain ⟨hport, hrest⟩ := Prod.mk.inj hrest
  obtain ⟨harrived, hout⟩ := Prod.mk.inj hrest
  obtain ⟨hread, hwrite, -⟩ := node_refines _ _ w hx
  exact ⟨w, hx, hdispatched, hport, harrived, hout, hread, hwrite⟩

end RosserialServer
