import RosserialServer.Proof.Provenance

/-!
# What ends a node

Nothing in the program catches an exception: one that leaves a callback leaves the executor,
and the process with it. `node_ends` is the list of all that can do this. From the device it
is two sync flags where a packet could begin, or a good packet whose callback does not
return; from ROS it is a message whose conversion does not return. No failure of the port is
on the list, and nothing that a handler of `service_io_` does by itself.
-/

namespace RosserialServer

open RosStream

/-! ## What ends a session -/

section Sessions

variable {τ : Type} {dispatch : Dispatch τ}

/-- The bytes behind which a session has ended. -/
inductive EndedBy (dispatch : Dispatch τ) (session : Session τ) (f : Failure) :
    List UInt8 → Prop where
  /-- Two flags where a packet could begin. -/
  | version {pre : List UInt8} : f = .thrown versionNotApplicable → Parsed pre session.dispatched →
      EndedBy dispatch session f (pre ++ [0xFF, 0xFF])
  /-- A good packet whose callback has not returned. -/
  | callback {pre : List UInt8} {done : List (UInt16 × List UInt8)} {p : Packet} : p.accepted →
      Parsed pre done → session.dispatched = done ++ [(p.topicId, p.payload)] →
      dispatch p.topicId (ofBuffer p.payload) session.tables = .error f →
      EndedBy dispatch session f (pre ++ p.bytes)

/-- A served request that is the last. -/
theorem ends_feed {used chunk : List UInt8} {session : Session τ} {next : Next Handler}
    {f : Failure} (h : Located used session.dispatched next)
    (hn : (sessionReader dispatch).need (session, next) = some chunk.length)
    (hend : ((sessionReader dispatch).feed (session, next) chunk).2 = .escape f) :
    EndedBy dispatch ((sessionReader dispatch).feed (session, next) chunk).1 f (used ++ chunk) := by
  have hsize := chunk_size hn
  generalize hd : session.dispatched = dispatched at h
  cases h with
  | head hp =>
      obtain ⟨b, rfl⟩ := chunk_one (hsize _ _ rfl)
      have hnext : readAsyncFirst (ofBuffer [b]) = .escape f := hend
      rw [readAsyncFirst_spec] at hnext
      split at hnext
      · exact absurd hnext (by simp)
      · exact absurd hnext (by simp [readAsyncHead])
  | @flag pre _ hp =>
      obtain ⟨b, rfl⟩ := chunk_one (hsize _ _ rfl)
      have hnext : readAsyncSecond (ofBuffer [b]) = .escape f := hend
      rw [readAsyncSecond_spec] at hnext
      split at hnext
      · exact absurd hnext (by simp)
      · split at hnext
        · rename_i hv
          rw [hv, List.append_assoc]
          refine EndedBy.version (Next.escape.inj hnext).symm ?_
          show Parsed pre session.dispatched
          rw [hd]
          exact hp
        · exact absurd hnext (by simp [readAsyncHead])
  | @sync pre _ hp =>
      obtain ⟨lo, hi, check, t0, t1, rfl⟩ := chunk_five (hsize _ _ rfl)
      have hnext : readLength (ofBuffer [lo, hi, check, t0, t1]) = .escape f := hend
      rw [readLength_spec] at hnext
      split at hnext
      · exact absurd hnext (by simp)
      · exact absurd hnext (by simp [readAsyncHead])
  | @header pre _ lo hi check t0 t1 hp hacc =>
      obtain ⟨body, cs, rfl, hlen⟩ := chunk_body (hsize _ _ rfl)
      obtain ⟨p, htopic, hpay, hcs, hbytes⟩ := packet_of_bytes t0 t1 cs hlen hacc
      have hshort := p.short
      have hfeed : (sessionReader dispatch).feed
          (session, .read ((word lo hi).toNat + 1) (.readBody (word t0 t1))) (body ++ [cs])
          = routeBody dispatch session p.topicId p.payload p.checksum := by
        rw [htopic, hpay, hcs]
        rw [hpay] at hshort
        exact readBody_spec dispatch session _ (by omega)
      rw [hfeed] at hend ⊢
      rw [List.append_assoc, ← hbytes]
      by_cases hok : p.accepted
      · cases hroute : dispatch p.topicId (ofBuffer p.payload) session.tables with
        | error g =>
            rw [routeBody_error hok hroute] at hend ⊢
            obtain rfl := Next.escape.inj hend
            exact EndedBy.callback hok hp (congrArg (· ++ _) hd) hroute
        | ok tables =>
            rw [routeBody_ok hok hroute] at hend
            exact absurd hend (by simp [readAsyncHead])
      · rw [routeBody_rejected hok] at hend
        exact absurd hend (by simp [readAsyncHead])
  | ended hp => exact absurd hn (by simp)

/-- **What ends a session.** -/
theorem eats_ends {tables : τ} {session : Session τ} {f : Failure} {used : List UInt8}
    (h : (sessionReader dispatch).Eats ({ tables := tables, dispatched := [] }, readAsyncHead) used
      (session, .escape f)) : EndedBy dispatch session f used := by
  rcases h.cases_tail with ⟨-, hsame⟩ | ⟨before, chunk, t, rfl, heats, hn, hfeed⟩
  · exact absurd (congrArg Prod.snd hsame) (by simp [readAsyncHead])
  · have hhead : Located [] ([] : List (UInt16 × List UInt8)) readAsyncHead :=
      Located.head Parsed.nil
    have hloc : Located ([] ++ before) t.1.dispatched t.2 := eats_located hhead heats
    have hends := ends_feed hloc hn (f := f) (by rw [← hfeed])
    rw [← hfeed] at hends
    exact hends

end Sessions

/-! ## What ends a node -/

section Nodes

variable {env : RosEnv} {w w' : NodeWorld}

/-- If the read side has ended, the session has read what ended it. -/
theorem ReadHalf.ended {r : ReadWorld Handler (Session Journal)} {rs : List ReadyHandler}
    {f : Failure}
    (h : ReadHalf env w r rs) (hesc : r.escaped = some f) :
    ∃ used rest, w.received = used ++ rest
      ∧ (sessionReader (journalled env)).Eats ({ tables := .new, dispatched := [] }, readAsyncHead)
        used (w.session, .escape f) := by
  obtain ⟨wire, events, hwire, -, hread⟩ := h.runs []
  obtain ⟨used, rest, next, hst, heats, hends⟩ := ReadWorld.served_reachable hread
  obtain rfl := (hends f).mpr hesc
  rw [List.flatten_nil, List.append_nil] at hwire
  have hsession : (r.awaiting []).user = w.session := h.session
  rw [hsession] at heats
  exact ⟨used, rest, hwire.symm.trans hst, heats⟩

/-- A message whose conversion does not return is the only message that ends a node. -/
theorem message_ends {topicId : UInt16} {deserialized : Except StdException (Option MsgObject)}
    {f : Failure} (hesc : w.escaped = none) (hm : w.message topicId deserialized = some w')
    (hend : w'.escaped = some f) :
    ∃ sub, w'.session.tables.routing.subscriber topicId = some sub
      ∧ (sub.streamDeserialized.subscribe deserialized).2 = .error f := by
  unfold NodeWorld.message at hm
  split at hm
  · exact absurd hm (by simp)
  · rename_i sub hsub
    cases hconv : (sub.streamDeserialized.subscribe deserialized).2 with
    | error g =>
        rw [callback_of_failure hconv] at hm
        obtain rfl := Option.some.inj hm
        obtain rfl := Option.some.inj hend
        exact ⟨sub, hsub, hconv⟩
    | ok serialMsg =>
        obtain ⟨started, hcall⟩ := callback_of_buffer hconv w.writer
        rw [hcall] at hm
        obtain rfl := Option.some.inj hm
        obtain ⟨pending, hsame, -⟩ := NodeWorld.startWrite_spec
          { w with
            writer := ⟨w.writer.sendBufs ++ [(framed serialMsg sub.topicInfo.topicId).bytes]⟩
            messages := w.messages ++ [(sub, deserialized)] } started
        rw [hsame] at hend
        exact absurd (hesc.symm.trans hend) (by simp)

/-- What the port and the timer end a node with, the session has read. -/
theorem step_ends {es : List NodeEvent} {e : NodeEvent} {f : Failure}
    (hx : Lts.exec (NodeWorld.step env) .start es = some w)
    (he : ∀ topicId deserialized, e ≠ .message topicId deserialized)
    (hs : w.step env e = some w') (hend : w'.escaped = some f) :
    ∃ used rest, w'.received = used ++ rest
      ∧ (sessionReader (journalled env)).Eats ({ tables := .new, dispatched := [] }, readAsyncHead)
        used (w'.session, .escape f) := by
  have hgo : w.escaped = none := by
    unfold NodeWorld.step at hs
    split at hs
    · exact absurd hs (by simp)
    · rename_i hno
      simpa using hno
  obtain ⟨r, s, hsim⟩ := simulates_reachable hx
  obtain ⟨r', s', ⟨rs, ws, -, hr, -⟩, hsame⟩ : ∃ r s, Simulates env w' r s
      ∧ r.escaped = w'.escaped := by
    refine NodeWorld.step_invariant (I := fun w => ∃ r s, Simulates env w r s ∧ r.escaped = w.escaped)
      ?_ he ⟨r, s, hsim, (hsim.quiet hgo).trans hgo.symm⟩ hs
    rintro u u' hesc ⟨r, s, h, -⟩ ht
    exact simulates_turn h hesc ht
  exact hr.ended (hsame.trans hend)

/-- A node that has ended did so at the last event of its run. -/
theorem ended_last {es : List NodeEvent} {f : Failure}
    (hx : Lts.exec (NodeWorld.step env) .start es = some w) (hend : w.escaped = some f) :
    (∃ past topicId deserialized sub, es = past ++ [.message topicId deserialized]
        ∧ w.session.tables.routing.subscriber topicId = some sub
        ∧ (sub.streamDeserialized.subscribe deserialized).2 = .error f)
      ∨ ∃ used rest, w.received = used ++ rest
        ∧ (sessionReader (journalled env)).Eats
          ({ tables := .new, dispatched := [] }, readAsyncHead) used (w.session, .escape f) := by
  rcases List.eq_nil_or_concat es with rfl | ⟨past, e, rfl⟩
  · obtain rfl := Option.some.inj hx
    obtain ⟨c, reader, pending, hsame⟩ := NodeWorld.start_spec
    rw [hsame] at hend
    exact absurd hend (by simp)
  · rw [List.concat_eq_append] at hx ⊢
    obtain ⟨u, hu, hs⟩ := Lts.exec_last hx
    by_cases he : ∃ topicId deserialized, e = .message topicId deserialized
    · obtain ⟨topicId, deserialized, rfl⟩ := he
      obtain ⟨hesc, hm⟩ := NodeWorld.step_message hs
      obtain ⟨sub, hsub, hconv⟩ := message_ends hesc hm hend
      exact Or.inl ⟨past, topicId, deserialized, sub, rfl, hsub, hconv⟩
    · exact Or.inr (step_ends hu (fun t deserialized h => he ⟨t, deserialized, h⟩) hs hend)

end Nodes

/--
**All that ends a node.** When something has escaped, either the last thing that happened
was a message whose conversion did not return, or the session has read what ended it: two
sync flags where it looked for a packet, or a good packet whose callback did not return.
-/
theorem node_ends (env : RosEnv) (es : List NodeEvent) (w : NodeWorld) (f : Failure)
    (hx : Lts.exec (NodeWorld.step env) .start es = some w) (hend : w.escaped = some f) :
    (∃ past topicId deserialized sub, es = past ++ [.message topicId deserialized]
        ∧ w.session.tables.routing.subscriber topicId = some sub
        ∧ (sub.streamDeserialized.subscribe deserialized).2 = .error f)
      ∨ ∃ used rest, w.received = used ++ rest ∧ EndedBy (journalled env) w.session f used := by
  rcases ended_last hx hend with hmessage | ⟨used, rest, hreceived, heats⟩
  · exact Or.inl hmessage
  · exact Or.inr ⟨used, rest, hreceived, eats_ends heats⟩

set_option maxRecDepth 4000 in
/-- A device that sends two flags. -/
theorem node_ends_flags :
    ∃ w, Lts.exec (NodeWorld.step (dataEnv .boolean 1)) .start
        [.port (.arrive [0xFF, 0xFF]), .port (.receive 0 2), .tick []] = some w
      ∧ w.escaped = some (.thrown versionNotApplicable)
      ∧ ∃ used rest, w.received = used ++ rest
        ∧ EndedBy (journalled (dataEnv .boolean 1)) w.session (.thrown versionNotApplicable) used := by
  have hrun : ∃ w, Lts.exec (NodeWorld.step (dataEnv .boolean 1)) .start
        [.port (.arrive [0xFF, 0xFF]), .port (.receive 0 2), .tick []] = some w
      ∧ w.escaped = some (.thrown versionNotApplicable) := ⟨_, rfl, rfl⟩
  obtain ⟨w, hx, hend⟩ := hrun
  refine ⟨w, hx, hend, ?_⟩
  rcases node_ends _ _ w _ hx hend with ⟨past, _, _, _, hes, -⟩ | hread
  · exact absurd (congrArg List.getLast? hes) (by simp)
  · exact hread

end RosserialServer
