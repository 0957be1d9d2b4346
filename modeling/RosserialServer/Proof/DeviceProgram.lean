import RosserialServer.Proof.Registering
import RosserialServer.Proof.Settling

/-!
# What a device says reaches ROS

A device is a list of packets: it registers topics and sends data, and some of its packets
may arrive damaged. `program_prefix` says what a node can have made of them while they come
in, however the port cuts and delays them and whatever fails: a beginning of what the
registry of the good packets delivers. `program_delivered` says that nothing is missing in
the end: when no read has failed, the node left alone handles all of them.
-/

namespace RosserialServer

open RosStream

/-! ## Along a list of packets -/

section Along

variable {τ : Type} {dispatch : Dispatch τ}

theorem eats_dispatched {s t : Session τ × Next Handler} {used : List UInt8}
    (h : (sessionReader dispatch).Eats s used t) : s.1.dispatched <+: t.1.dispatched := by
  refine h.relates (R := fun s t => s.1.dispatched <+: t.1.dispatched) (fun _ => List.prefix_refl _)
    ?_ ?_
  · intro s t u h h'
    exact List.IsPrefix.trans h h'
  · rintro ⟨session, next⟩ chunk hn
    cases next with
    | escape f => exact absurd hn (by simp)
    | read n k => exact NodeWorld.handle_dispatched dispatch k session (ofBuffer chunk)

/-- The session takes packet after packet, until they are at an end or a callback throws. -/
theorem packets_walk (dispatch : Dispatch τ) {ps : List Packet}
    (h : ∀ p ∈ ps, p.payload.length < readerCapacity) (session : Session τ) :
    ∃ taken left session' next, ps = taken ++ left
      ∧ (sessionReader dispatch).Eats (session, readAsyncHead) (taken.flatMap Packet.bytes)
        (session', next)
      ∧ session'.dispatched = session.dispatched ++ taken.filterMap Packet.delivered
      ∧ (left = [] ∨ ∃ f, next = .escape f) := by
  induction ps generalizing session with
  | nil => exact ⟨[], [], session, readAsyncHead, rfl, Demand.Eats.refl _, by simp, Or.inl rfl⟩
  | cons p ps ih =>
      have hp := packet_eats dispatch session p (h p List.mem_cons_self)
      have hps : ∀ q ∈ ps, q.payload.length < readerCapacity := fun q hq =>
        h q (List.mem_cons_of_mem p hq)
      by_cases hok : p.accepted = true
      · have hone : p.delivered = some (p.topicId, p.payload) := if_pos hok
        cases hd : dispatch p.topicId (ofBuffer p.payload) session.tables with
        | error f =>
            rw [routeBody_error hok hd] at hp
            refine ⟨[p], ps,
              { session with dispatched := session.dispatched ++ [(p.topicId, p.payload)] }, .escape f,
              rfl, ?_, ?_, Or.inr ⟨f, rfl⟩⟩
            · rw [List.flatMap_singleton]
              exact hp
            · rw [List.filterMap_cons_some hone]
              rfl
        | ok tables =>
            rw [routeBody_ok hok hd] at hp
            obtain ⟨taken, left, session', next, rfl, heats, hdisp, hend⟩ := ih hps
              { tables := tables, dispatched := session.dispatched ++ [(p.topicId, p.payload)] }
            refine ⟨p :: taken, left, session', next, rfl, ?_, ?_, hend⟩
            · rw [List.flatMap_cons]
              exact hp.trans heats
            · rw [hdisp, List.filterMap_cons_some hone, List.append_assoc]
              rfl
      · have hnone : p.delivered = none := if_neg hok
        rw [routeBody_rejected hok] at hp
        obtain ⟨taken, left, session', next, rfl, heats, hdisp, hend⟩ := ih hps session
        refine ⟨p :: taken, left, session', next, rfl, ?_, ?_, hend⟩
        · rw [List.flatMap_cons]
          exact hp.trans heats
        · rw [hdisp, List.filterMap_cons_none hnone]

variable {ps : List Packet} {session : Session τ} {t : Session τ × Next Handler}
  {used rest : List UInt8}

/-- **Wherever a session is in a stream of packets**, it has dispatched the good ones so far. -/
theorem dispatched_along (h : ∀ p ∈ ps, p.payload.length < readerCapacity)
    (heats : (sessionReader dispatch).Eats (session, readAsyncHead) used t)
    (hst : used ++ rest = ps.flatMap Packet.bytes) :
    t.1.dispatched <+: session.dispatched ++ ps.filterMap Packet.delivered := by
  obtain ⟨taken, left, session', next, rfl, hwalk, hdisp, hend⟩ := packets_walk dispatch h session
  have htaken : session'.dispatched
      <+: session.dispatched ++ (taken ++ left).filterMap Packet.delivered := by
    rw [hdisp, List.filterMap_append, ← List.append_assoc]
    exact List.prefix_append _ _
  rw [List.flatMap_append] at hst
  rcases heats.comparable hwalk hst with ⟨more, -, hmore⟩ | ⟨more, hused, hmore⟩
  · exact (eats_dispatched hmore).trans htaken
  · -- it is past the last packet it can take, so it has not moved from there
    have hsame : t = (session', next) := by
      rcases hend with rfl | ⟨f, rfl⟩
      · rw [hused, List.flatMap_nil, List.append_assoc] at hst
        obtain ⟨rfl, -⟩ := List.append_eq_nil_iff.mp (List.append_cancel_left hst)
        exact hmore.of_nil
      · rcases hmore.cases_head with ⟨-, hsame⟩ | ⟨chunk, _, -, hn, -⟩
        · exact hsame
        · exact absurd hn (by simp)
    rw [hsame]
    exact htaken

/-- **A session that starves and has not ended has dispatched them all.** -/
theorem dispatched_all (h : ∀ p ∈ ps, p.payload.length < readerCapacity)
    (heats : (sessionReader dispatch).Eats (session, readAsyncHead) used t)
    (hst : used ++ rest = ps.flatMap Packet.bytes)
    (hstarved : (sessionReader dispatch).Starved t rest)
    (hgoes : ∀ f, t.2 ≠ .escape f) :
    t.1.dispatched = session.dispatched ++ ps.filterMap Packet.delivered := by
  obtain ⟨taken, left, session', next, rfl, hwalk, hdisp, hend⟩ := packets_walk dispatch h session
  rw [List.flatMap_append] at hst
  obtain ⟨more, hused, hmore⟩ := heats.reached hstarved hwalk hst
  rcases hend with rfl | ⟨f, rfl⟩
  · rw [hused, List.flatMap_nil, List.append_assoc] at hst
    obtain ⟨rfl, -⟩ := List.append_eq_nil_iff.mp (List.append_cancel_left hst)
    rw [hmore.of_nil, List.append_nil]
    exact hdisp
  · rcases hmore.cases_head with ⟨-, rfl⟩ | ⟨chunk, _, -, hn, -⟩
    · exact absurd rfl (hgoes f)
    · exact absurd hn (by simp)

end Along

/-! ## While the packets come in -/

section Programs

variable {env : RosEnv} {w : NodeWorld} {ps : List Packet}

theorem dispatched_reachable {es : List NodeEvent}
    (hx : Lts.exec (NodeWorld.step env) .start es = some w)
    (hlen : ∀ p ∈ ps, p.payload.length < readerCapacity)
    (hreceived : w.received <+: ps.flatMap Packet.bytes) :
    w.session.dispatched <+: ps.filterMap Packet.delivered := by
  obtain ⟨r, s, rs, ws, -, hr, -⟩ := simulates_reachable hx
  obtain ⟨wire, events, hwire, -, hread⟩ := hr.runs []
  obtain ⟨used, rest, next, hst, heats, -⟩ := ReadWorld.served_reachable hread
  obtain ⟨more, hmore⟩ := hreceived
  rw [List.flatten_nil, List.append_nil] at hwire
  rw [← hwire, hst, List.append_assoc] at hmore
  have hall := dispatched_along hlen heats hmore
  have hsession : (r.awaiting []).user = w.session := hr.session
  dsimp only at hall
  rw [hsession, List.nil_append] at hall
  exact hall

end Programs

/--
**What a node has made of a device's packets.** At any time, and whatever has failed, it
has dispatched the first so many of the good ones, and what it has handled is a beginning of
what their registry delivers.
-/
theorem program_prefix (env : RosEnv) (ps : List Packet)
    (hlen : ∀ p ∈ ps, p.payload.length < readerCapacity)
    (hown : ∀ d ∈ ps.filterMap Packet.delivered, ¬Usurps d)
    (es : List NodeEvent) (w : NodeWorld) (hx : Lts.exec (NodeWorld.step env) .start es = some w)
    (hreceived : w.received <+: ps.flatMap Packet.bytes) :
    w.session.dispatched <+: ps.filterMap Packet.delivered
      ∧ w.session.tables.handled.map Handled.item
        <+: (publishersOf (ps.filterMap Packet.delivered)).delivered := by
  have hdispatched := dispatched_reachable hx hlen hreceived
  obtain ⟨done, -, htold, hlisted⟩ := listed_reachable hx fun d hd => hown d (hdispatched.subset hd)
  refine ⟨hdispatched, ?_⟩
  rw [hlisted.delivered]
  exact Registry.delivered_mono _ ((htold.beginning.trans hdispatched).filterMap heard)

/-- The packets of a device that registers topic 125 and sends one value on it. -/
def valueProgram : List Packet := [registerPacket 125 187, ⟨125, [1], 0x81, by decide⟩]

theorem valueProgram_delivered : valueProgram.filterMap Packet.delivered = valuePackets := by decide

/-- Of the value only four bytes have arrived. -/
theorem program_prefix_value :
    ∃ w, Lts.exec (NodeWorld.step (dataEnv .boolean 1)) .start
        [.port (.arrive ((valueProgram.flatMap Packet.bytes).take 35)), .port (.receive 0 35),
          .tick []] = some w
      ∧ w.session.dispatched.length = 1 ∧ w.session.dispatched <+: valuePackets
      ∧ w.session.tables.handled.map Handled.item <+: (publishersOf valuePackets).delivered := by
  have hrun : (Lts.exec (NodeWorld.step (dataEnv .boolean 1)) .start
        [.port (.arrive ((valueProgram.flatMap Packet.bytes).take 35)), .port (.receive 0 35),
          .tick []]).map (fun w => (w.received, w.session.dispatched.length))
        = some ((valueProgram.flatMap Packet.bytes).take 35, 1) := by
    decide +kernel
  obtain ⟨w, hx, hends⟩ := Option.map_eq_some_iff.mp hrun
  obtain ⟨hreceived, hone⟩ := Prod.mk.inj hends
  have hall := program_prefix (dataEnv .boolean 1) valueProgram (by decide)
    (by rw [valueProgram_delivered]; exact valuePackets_own) _ w hx
    (by rw [hreceived]; exact List.take_prefix _ _)
  rw [valueProgram_delivered] at hall
  exact ⟨w, hx, hone, hall⟩

/-! ## In the end -/

/-- A node at rest whose session still goes on waits for more than it has. -/
theorem rested_starves {env : RosEnv} {w : NodeWorld} {r : ReadWorld Handler (Session Journal)}
    {rs ws : List ReadyHandler} {next : Next Handler} {rest : List UInt8}
    (hperm : w.outstanding.Perm (rs ++ ws)) (hr : ReadHalf env w r rs)
    (hrested : Rested w) (hunfinished : ∀ op ∈ w.pending, NodeWorld.Unfinished op)
    (ht : ReadWorld.Tracks readerCapacity (r.awaiting []) next rest) :
    (sessionReader (journalled env)).Starved ((r.awaiting []).user, next) rest := by
  -- what is outstanding of the read side waits for the port
  have hwaits : ∀ x ∈ rs, ∃ op ∈ w.pending, x = .progressed op := fun x hx =>
    outstanding_waits hrested.ready (hperm.symm.subset (List.mem_append_left ws hx))
  intro n hn
  cases ht with
  | @waiting m k held _ hgood hs hio =>
      rw [flat_need_read hgood] at hn
      obtain rfl := Option.some.inj hn
      cases hr.side with
      | silent hno _ => exact absurd (hio.symm.trans hno) (by simp)
      | posted hone _ _ => exact absurd (hio.symm.trans hone) (by simp)
      | failed _ _ _ =>
          obtain ⟨op, -, heq⟩ := hwaits _ (List.mem_singleton.mpr rfl)
          exact absurd heq (by simp)
      | @reading c off size atLeast got hone hp _ _ hblock =>
          obtain ⟨op, hop, heq⟩ := hwaits _ (List.mem_singleton.mpr rfl)
          injection heq with hsame
          subst hsame
          have harrived : w.arrived = [] := by
            rcases hrested.handedOver with hnone | hnoRead
            · exact hnone
            · exact absurd (hnoRead _ hop) (by simp [Operation.isRead])
          obtain rfl := List.singleton_inj.mp (hone.symm.trans hio)
          have hatLeast : atLeast = m - held.length := by
            rcases hp with hp | ⟨hp, -⟩
            · injection hp with _ _ h3
              exact h3.symm
            · exact absurd hp (by simp)
          have hshort := hs.short
          have hunread : (r.awaiting []).unread = held ++ got := by
            unfold ReadWorld.unread
            rw [hs.serving.holds]
            show held ++ r.arrived ++ [] = held ++ got
            rw [hblock.arrived, harrived, List.append_nil, List.append_nil]
          rw [hunread, List.length_append]
          rcases hunfinished _ hop with rfl | hlt
          · rw [List.length_nil]
            omega
          · omega
  | posted _ _ _ hio _ _ =>
      exfalso
      cases hr.side with
      | silent hno _ => exact absurd (hio.symm.trans hno) (by simp)
      | posted _ _ _ =>
          obtain ⟨op, -, heq⟩ := hwaits _ (List.mem_singleton.mpr rfl)
          exact absurd heq (by simp)
      | reading hone hp _ _ _ =>
          obtain rfl := List.singleton_inj.mp (hone.symm.trans hio)
          rcases hp with hp | ⟨hp, -⟩ <;> exact absurd hp (by simp)
      | failed hone hp _ =>
          obtain rfl := List.singleton_inj.mp (hone.symm.trans hio)
          rcases hp with hp | ⟨hp, -⟩ <;> exact absurd hp (by simp)
  | refused _ hbad _ _ =>
      rw [flat_need_refused hbad] at hn
      exact absurd hn (by simp)
  | ended _ _ => exact absurd hn (by simp)

/-- A node at rest that goes on has dispatched all good packets, if no read has failed. -/
theorem dispatched_rested {env : RosEnv} {ps : List Packet} {es : List NodeEvent} {w : NodeWorld}
    (hx : Lts.exec (NodeWorld.step env) .start es = some w)
    (hlen : ∀ p ∈ ps, p.payload.length < readerCapacity)
    (hreceived : w.received = ps.flatMap Packet.bytes) (hesc : w.escaped = none)
    (hwell : ∀ x ∈ w.ran, x.outcome ≠ some .failed) (hrested : Rested w) :
    w.session.dispatched = ps.filterMap Packet.delivered := by
  obtain ⟨r, s, rs, ws, hperm, hr, -⟩ := simulates_reachable hx
  obtain ⟨used, rest, next, hst, heats, ht⟩ := hr.follows hwell
  have hstarved := rested_starves hperm hr hrested (NodeWorld.unfinished_reachable hx) ht
  rw [hreceived] at hst
  have hall := dispatched_all hlen heats hst.symm hstarved (ht.not_escape (hr.quiet hesc))
  have hsession : (r.awaiting []).user = w.session := hr.session
  dsimp only at hall
  rw [hsession, List.nil_append] at hall
  exact hall

/--
**Nothing a device says is lost.** When all of its packets have arrived, however they are
cut up, and no read has failed, the node left alone dispatches all good ones of them, and
has then handled exactly what their registry delivers, unless a callback has thrown.
-/
theorem program_delivered (env : RosEnv) (ps : List Packet)
    (hlen : ∀ p ∈ ps, p.payload.length < readerCapacity)
    (hown : ∀ d ∈ ps.filterMap Packet.delivered, ¬Usurps d)
    (es : List NodeEvent) (w : NodeWorld) (hx : Lts.exec (NodeWorld.step env) .start es = some w)
    (hreceived : w.received = ps.flatMap Packet.bytes)
    (hwell : ∀ x ∈ w.ran ++ w.ready, x.outcome ≠ some .failed) :
    Lts.Inevitably (NodeWorld.ownStep env)
      (fun w' => w'.escaped = none →
        w'.session.dispatched = ps.filterMap Packet.delivered
          ∧ w'.session.tables.handled.map Handled.item
            = (publishersOf (ps.filterMap Packet.delivered)).delivered) w := by
  refine (settles_reachable hx).mono ?_
  rintro w' ⟨⟨es', hx'⟩, halone, hrest⟩ hesc
  have hall := dispatched_rested hx' hlen (halone.received.trans hreceived) hesc
    (halone.reads_well hwell) (hrest hesc)
  refine ⟨hall, ?_⟩
  obtain ⟨done, hdone, -, hlisted⟩ := listed_reachable hx' (by rw [hall]; exact hown)
  rw [hlisted.delivered, hdone hesc, hall]

/-- All of the device's bytes have arrived, and the node has seen none of them. -/
theorem program_delivered_value :
    ∃ w, Lts.exec (NodeWorld.step (dataEnv .boolean 1)) .start
        [.port (.arrive (valueProgram.flatMap Packet.bytes))] = some w
      ∧ w.session.dispatched = []
      ∧ Lts.Inevitably (NodeWorld.ownStep (dataEnv .boolean 1))
        (fun w' => w'.escaped = none → w'.session.dispatched = valuePackets
          ∧ w'.session.tables.handled.map Handled.item = (publishersOf valuePackets).delivered) w := by
  have hrun : (Lts.exec (NodeWorld.step (dataEnv .boolean 1)) .start
        [.port (.arrive (valueProgram.flatMap Packet.bytes))]).map
      (fun w => (w.received, w.session.dispatched, w.ran ++ w.ready))
        = some (valueProgram.flatMap Packet.bytes, [], []) := by
    decide +kernel
  obtain ⟨w, hx, hends⟩ := Option.map_eq_some_iff.mp hrun
  obtain ⟨hreceived, hrest⟩ := Prod.mk.inj hends
  obtain ⟨hnone, hquiet⟩ := Prod.mk.inj hrest
  have hall := program_delivered (dataEnv .boolean 1) valueProgram (by decide)
    (by rw [valueProgram_delivered]; exact valuePackets_own) _ w hx hreceived
    (by rw [hquiet]; simp)
  rw [valueProgram_delivered] at hall
  exact ⟨w, hx, hnone, hall⟩

end RosserialServer
