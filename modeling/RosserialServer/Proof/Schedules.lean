import RosserialServer.Proof.DeviceProgram
import RosserialServer.Proof.Endings

/-!
# The schedule does not matter

How the port cuts and delays the bytes, how late the timer is, which handlers a tick gets
to, what messages come in between and what becomes of their writes: none of this shows in
what a node makes of the bytes it receives. `outcome_determined` says so of any bytes, also
of those that no packet is in: they alone decide which state the session comes to, what ROS
is handed on the way and whether the process ends. What a node has made of a beginning of
them, even one whose port has failed, it has not got to take back (`GoneOn`).
-/

namespace RosserialServer

open RosStream

/-! ## What a session does not take back -/

/-- The one session has gone on from the other. -/
structure GoneOn (session session' : Session Journal) : Prop where
  dispatched : session.dispatched <+: session'.dispatched
  handled : session.tables.handled <+: session'.tables.handled
  rosCalls : session.tables.routing.rosCalls <+: session'.tables.routing.rosCalls
  callback : ∀ topicId, (session.tables.routing.callback topicId).isSome →
    (session'.tables.routing.callback topicId).isSome
  subscriber : ∀ topicId, (session.tables.routing.subscriber topicId).isSome →
    (session'.tables.routing.subscriber topicId).isSome

theorem GoneOn.refl (session : Session Journal) : GoneOn session session :=
  ⟨List.prefix_refl _, List.prefix_refl _, List.prefix_refl _, fun _ h => h, fun _ h => h⟩

theorem GoneOn.trans {session session' session'' : Session Journal} (h : GoneOn session session')
    (h' : GoneOn session' session'') : GoneOn session session'' where
  dispatched := h.dispatched.trans h'.dispatched
  handled := h.handled.trans h'.handled
  rosCalls := h.rosCalls.trans h'.rosCalls
  callback := fun topicId hsome => h'.callback topicId (h.callback topicId hsome)
  subscriber := fun topicId hsome => h'.subscriber topicId (h.subscriber topicId hsome)

/-- Registering an id does not take another one away. -/
theorem isSome_update {α : Type} (f : UInt16 → Option α) (topicId : UInt16) (x : α) (t : UInt16)
    (h : (f t).isSome) : (Function.update f topicId (some x) t).isSome := by
  by_cases ht : t = topicId
  · rw [ht, Function.update_self]
    rfl
  · rw [Function.update_of_ne ht]
    exact h

theorem Effect.goneOn {env : RosEnv} {p : Packet} {session : Session Journal} {journal : Journal}
    (h : Effect env p.topicId p.payload session.tables journal) :
    GoneOn session
      { tables := journal, dispatched := session.dispatched ++ [(p.topicId, p.payload)] } := by
  have hmore := List.prefix_append session.dispatched [(p.topicId, p.payload)]
  cases h with
  | unknown _ => exact ⟨hmore, List.prefix_refl _, List.prefix_refl _, fun _ h => h, fun _ h => h⟩
  | refused _ _ => exact ⟨hmore, List.prefix_refl _, List.prefix_refl _, fun _ h => h, fun _ h => h⟩
  | publisher _ _ _ =>
      exact ⟨hmore, List.prefix_refl _, List.prefix_refl _, isSome_update _ _ _, fun _ h => h⟩
  | subscription _ _ _ =>
      exact ⟨hmore, List.prefix_refl _, List.prefix_refl _, fun _ h => h, isSome_update _ _ _⟩
  | data _ =>
      exact ⟨hmore, List.prefix_append _ _, List.prefix_append _ _, fun _ h => h, fun _ h => h⟩

/-- **However far a session reads on, it takes nothing back.** -/
theorem eats_goneOn {env : RosEnv} {s t : Session Journal × Next Handler} {used : List UInt8}
    (h : (sessionReader (journalled env)).Eats s used t) : GoneOn s.1 t.1 := by
  refine h.relates (R := fun s t => GoneOn s.1 t.1) (fun s => GoneOn.refl s.1) ?_ ?_
  · intro s t u h h'
    exact GoneOn.trans h h'
  · rintro ⟨session, next⟩ chunk hn
    rcases feed_cases hn with hsame | ⟨p, hok, hfeed⟩
    · show GoneOn session _
      rw [hsame]
      exact GoneOn.refl session
    · dsimp only
      rw [hfeed]
      cases hd : journalled env p.topicId (ofBuffer p.payload) session.tables with
      | error f =>
          -- the packet counts as dispatched, and has left no trace besides
          rw [routeBody_error hok hd]
          exact ⟨List.prefix_append _ _, List.prefix_refl _, List.prefix_refl _, fun _ h => h,
            fun _ h => h⟩
      | ok journal =>
          rw [routeBody_ok hok hd]
          exact (journalled_effect hd).goneOn

/-! ## Where a node gets to -/

section Outcomes

variable {env : RosEnv} {w : NodeWorld}

/-- How a reader has ended, if it has. -/
def ending : Next Handler → Option Failure
  | .read _ _ => none
  | .escape f => some f

/-- If the node has ended, it was because of what its session has read. -/
def EndsReading (env : RosEnv) (w : NodeWorld) : Prop :=
  ∀ f, w.escaped = some f → ∃ used rest, w.received = used ++ rest
    ∧ (sessionReader (journalled env)).Eats ({ tables := .new, dispatched := [] }, readAsyncHead) used
      (w.session, .escape f)

/-- What a node does by itself does not end it otherwise. -/
theorem ownStep_endsReading {es : List NodeEvent} {e : NodeEvent} {w' : NodeWorld}
    (hx : Lts.exec (NodeWorld.step env) .start es = some w) (hs : w.ownStep env e = some w') :
    EndsReading env w' := by
  intro f hend
  obtain ⟨hstep, -, -⟩ := NodeWorld.ownStep_spec (NodeWorld.awake_reachable hx) hs
  have hmessage : ∀ topicId deserialized, e ≠ .message topicId deserialized := by
    rintro topicId deserialized rfl
    exact absurd hs (by simp [NodeWorld.ownStep])
  exact step_ends hx hmessage hstep hend

/-- **A node that has come to rest, or has ended by itself, has got to the end of its bytes.** -/
theorem rested_reached {es : List NodeEvent} (hx : Lts.exec (NodeWorld.step env) .start es = some w)
    (hwell : ∀ x ∈ w.ran, x.outcome ≠ some .failed) (hrest : w.escaped = none → Rested w)
    (hends : EndsReading env w) :
    ∃ next rest, (sessionReader (journalled env)).Halts
        ({ tables := .new, dispatched := [] }, readAsyncHead) w.received (w.session, next) rest
      ∧ w.escaped = ending next := by
  cases hesc : w.escaped with
  | some f =>
      obtain ⟨used, rest, hreceived, heats⟩ := hends f hesc
      refine ⟨.escape f, rest, ⟨used, hreceived, heats, ?_⟩, rfl⟩
      intro n hn
      exact absurd hn (by simp)
  | none =>
      obtain ⟨r, s, rs, ws, hperm, hr, -⟩ := simulates_reachable hx
      obtain ⟨used, rest, next, hst, heats, ht⟩ := hr.follows hwell
      have hstarved := rested_starves hperm hr (hrest hesc) (NodeWorld.unfinished_reachable hx) ht
      have hgoes := ht.not_escape (hr.quiet hesc)
      have hsession : (r.awaiting []).user = w.session := hr.session
      rw [hsession] at heats hstarved
      refine ⟨next, rest, ⟨used, hst, heats, hstarved⟩, ?_⟩
      cases next with
      | read n k => rfl
      | escape f => exact absurd rfl (hgoes f)

end Outcomes

/--
**The bytes decide.** For any bytes there are one session and one ending that every node
comes to that has received them and whose reads have not failed, if it is left alone before
a message has ended it. A node that has received a beginning of them is on its way there,
whatever has failed.
-/
theorem outcome_determined (env : RosEnv) (bytes : List UInt8) :
    ∃ (session : Session Journal) (ended : Option Failure), ∀ es w,
      Lts.exec (NodeWorld.step env) .start es = some w →
        (w.received <+: bytes → GoneOn w.session session)
          ∧ (w.received = bytes → w.escaped = none →
            (∀ x ∈ w.ran ++ w.ready, x.outcome ≠ some .failed) →
            Lts.Inevitably (NodeWorld.ownStep env)
              (fun w' => w'.session = session ∧ w'.escaped = ended) w) := by
  obtain ⟨⟨session, next⟩, rest, hhalts⟩ := (sessionReader (journalled env)).halts_exists
    ({ tables := .new, dispatched := [] }, readAsyncHead) bytes
  refine ⟨session, ending next, fun es w hx => ⟨?_, ?_⟩⟩
  · rintro ⟨more, hmore⟩
    obtain ⟨r, s, rs, ws, -, hr, -⟩ := simulates_reachable hx
    obtain ⟨wire, events, hwire, -, hread⟩ := hr.runs []
    obtain ⟨used, left, next', hst, heats, -⟩ := ReadWorld.served_reachable hread
    have hsession : (r.awaiting []).user = w.session := hr.session
    rw [List.flatten_nil, List.append_nil] at hwire
    rw [← hwire, hst, List.append_assoc] at hmore
    rw [← hsession]
    -- of two readers of the same bytes the one that has halted is ahead
    obtain ⟨used', hbytes, hall, hstarved⟩ := hhalts
    obtain ⟨ahead, -, hahead⟩ := hall.reached hstarved heats (hbytes.symm.trans hmore.symm)
    exact eats_goneOn hahead
  · intro hreceived hesc hwell
    have hends : EndsReading env w := by
      intro f hf
      exact absurd (hesc.symm.trans hf) (by simp)
    have hall := (settles_reachable hx).keep
      (I := fun u => EndsReading env u ∧ ∃ es, Lts.exec (NodeWorld.step env) .start es = some u)
      ?_ ⟨hends, es, hx⟩
    · refine hall.mono ?_
      rintro w' ⟨⟨⟨es', hx'⟩, halone, hrest⟩, hends', -⟩
      obtain ⟨next', rest', hhalts', hended⟩ :=
        rested_reached hx' (halone.reads_well hwell) hrest hends'
      rw [halone.received, hreceived] at hhalts'
      obtain ⟨hsame, -⟩ := Demand.halts_unique hhalts' hhalts
      obtain ⟨rfl, rfl⟩ := Prod.mk.inj hsame
      exact ⟨rfl, hended⟩
    · rintro u e u' ⟨-, es', hu⟩ hs
      obtain ⟨hstep, -, -⟩ := NodeWorld.ownStep_spec (NodeWorld.awake_reachable hu) hs
      exact ⟨ownStep_endsReading hu hs, es' ++ [e], Lts.exec_snoc hu hstep⟩

end RosserialServer
