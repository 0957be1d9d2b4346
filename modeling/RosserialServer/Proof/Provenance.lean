import RosserialServer.Proof.NodeRefine
import RosserialServer.Proof.Routing

/-!
# Where everything comes from

The node sits between two parties that never see each other. What it hands to either of
them can be traced to the bytes the device sent: a call into ROS to a registration and,
behind it, a data packet under the id that was registered (`handled_sourced`); a byte on
the port to a message of a subscription, and that to a registration (`port_sourced`).
Neither depends on how the port cut the bytes, on what failed, or on what the other side
did meanwhile.

Sessions are traced by one rule: what routing a validated body keeps, every run keeps
(`session_invariant`).
-/

namespace RosserialServer

open Bytes Outcome RosStream

/-! ## What a run has served -/

namespace ReadWorld

variable {κ ρ : Type} {react : Reaction κ ρ} {C : Nat} {s : ρ × Next κ} {stream : List UInt8}
  {w w' : ReadWorld κ ρ}

/-- The user is where the flat reader gets with some beginning of the stream, its end included. -/
def Served (react : Reaction κ ρ) (C : Nat) (s : ρ × Next κ) (stream : List UInt8)
    (w : ReadWorld κ ρ) : Prop :=
  ∃ used rest next, stream = used ++ rest ∧ (flat react C).Eats s used (w.user, next)
    ∧ ∀ f, next = .escape f ↔ w.escaped = some f

theorem Follows.served (h : Follows react C s stream w) : Served react C s stream w := by
  obtain ⟨used, rest, next, hst, heats, ht⟩ := h
  refine ⟨used, rest, next, hst, heats, ?_⟩
  intro f
  cases ht with
  | waiting hesc _ _ _ => simp [hesc]
  | posted hesc _ _ _ _ _ => simp [hesc]
  | refused hesc _ _ _ => simp [hesc]
  | ended hesc _ => simp [hesc]

/-- It serves the stream, or a failed read has silenced it. -/
def Serving (react : Reaction κ ρ) (C : Nat) (s : ρ × Next κ) (stream : List UInt8)
    (w : ReadWorld κ ρ) : Prop :=
  Follows react C s stream w ∨ (w.serviceIo = [] ∧ Served react C s stream w)

theorem Serving.served (h : Serving react C s stream w) : Served react C s stream w := by
  rcases h with hf | ⟨-, hserved⟩
  · exact hf.served
  · exact hserved

theorem serving_step {e : PortEvent} (h : Serving react C s stream w)
    (hs : w.step react e = some w') : Serving react C s stream w' := by
  have hserved := h.served
  obtain ⟨hesc, hcases⟩ := step_cases hs
  rcases h with hf | ⟨hio, -⟩
  · by_cases hq : e.isFail = true
    · rcases hcases with ⟨rfl, -⟩ | ⟨i, n, c, off, size, d, rfl, -⟩ |
        ⟨i, c, off, size, d, -, hc, -, rfl⟩ | ⟨i, callback, off, len, rfl, -⟩
      · exact absurd hq (by simp [PortEvent.isFail])
      · exact absurd hq (by simp [PortEvent.isFail])
      · -- the only outstanding operation is taken out, and none is started
        obtain ⟨used, rest, next, -, -, ht⟩ := hf
        refine Or.inr ⟨?_, hserved⟩
        show w.serviceIo.eraseIdx i ++ [] = []
        rw [List.append_nil]
        exact ht.eraseIdx hc
      · exact absurd hq (by simp [PortEvent.isFail])
    · refine Or.inl (step_follows hf (e := e) ?_)
      unfold quietStep
      rw [if_neg hq]
      exact hs
  · -- once silenced, it only sees further chunks arrive
    rcases hcases with ⟨-, chunk, wire, hw, rfl⟩ | ⟨i, _, c, _, _, _, -, hc, -⟩ |
      ⟨i, c, _, _, _, -, hc, -⟩ | ⟨i, _, _, _, -, hc, -⟩
    · exact Or.inr ⟨hio, hserved⟩
    all_goals rw [hio] at hc; exact absurd hc (by simp)

/-- **In every run the user is where the flat reader gets**, port failures included. -/
theorem served_reachable {user : ρ} {first : Next κ} {wire : List (List UInt8)}
    {es : List PortEvent} (hx : Lts.exec (step react) (start C user first wire) es = some w) :
    Served react C (user, first) wire.flatten w := by
  have hend : Serving react C (user, first) wire.flatten w := by
    refine Lts.exec_invariant ?_ (Or.inl (start_follows user first wire)) hx
    intro u e u' hI hs
    exact serving_step hI hs
  exact hend.served

end ReadWorld

/-! ## The session rule -/

section Rule

variable {τ : Type} {dispatch : Dispatch τ} {tables : τ} {P Q : Session τ → Prop}

/-- Serving a request dispatches a body, or leaves the session alone. -/
theorem feed_cases {session : Session τ} {next : Next Handler} {chunk : List UInt8}
    (hn : (sessionReader dispatch).need (session, next) = some chunk.length) :
    ((sessionReader dispatch).feed (session, next) chunk).1 = session
      ∨ ∃ p : Packet, p.accepted = true ∧ (sessionReader dispatch).feed (session, next) chunk
        = routeBody dispatch session p.topicId p.payload p.checksum := by
  cases next with
  | escape f => exact absurd hn (by simp)
  | read n k =>
      have hsize : chunk.length = n := flat_chunk hn
      cases k with
      | readAsyncFirst => exact Or.inl rfl
      | readAsyncSecond => exact Or.inl rfl
      | readLength => exact Or.inl rfl
      | readBody topicId =>
          have hpos := (sessionReader dispatch).need_pos _ _ hn
          have hle : chunk.length ≤ readerCapacity := by
            by_contra hbig
            have hrefused : (sessionReader dispatch).need (session, .read n (.readBody topicId))
                = none := flat_need_refused (by omega)
            rw [hrefused] at hn
            exact absurd hn (by simp)
          obtain ⟨m, rfl⟩ : ∃ m, n = m + 1 := ⟨n - 1, by omega⟩
          obtain ⟨body, cs, rfl, hbody⟩ := chunk_body hsize
          have hshort : body.length < 512 := by
            rw [hsize, hbody.symm] at hle
            exact hle
          have hfeed : (sessionReader dispatch).feed (session, .read (m + 1) (.readBody topicId))
              (body ++ [cs]) = routeBody dispatch session topicId body cs :=
            readBody_spec dispatch session topicId (by omega)
          rw [hfeed]
          let p : Packet := ⟨topicId, body, cs, by omega⟩
          by_cases hok : p.accepted = true
          · exact Or.inr ⟨p, hok, rfl⟩
          · have hrejected : routeBody dispatch session topicId body cs = (session, readAsyncHead) :=
              routeBody_rejected (p := p) hok
            rw [hrejected]
            exact Or.inl rfl

/-- What dispatching keeps, `P`, and what it leaves when a callback does not return, `Q`. -/
structure KeptBy (dispatch : Dispatch τ) (P Q : Session τ → Prop) : Prop where
  weaken : ∀ session, P session → Q session
  returns : ∀ (session : Session τ) (p : Packet) tables, P session → p.accepted = true →
    dispatch p.topicId (ofBuffer p.payload) session.tables = .ok tables →
    P { tables := tables, dispatched := session.dispatched ++ [(p.topicId, p.payload)] }
  throws : ∀ (session : Session τ) (p : Packet) f, P session → p.accepted = true →
    dispatch p.topicId (ofBuffer p.payload) session.tables = .error f →
    Q { session with dispatched := session.dispatched ++ [(p.topicId, p.payload)] }

theorem eats_kept (hk : KeptBy dispatch P Q) {s t : Session τ × Next Handler} {used : List UInt8}
    (hP : P s.1) (h : (sessionReader dispatch).Eats s used t) :
    Q t.1 ∧ ((∀ f, t.2 ≠ .escape f) → P t.1) := by
  induction h with
  | refl => exact ⟨hk.weaken _ hP, fun _ => hP⟩
  | @tail t l chunk _ hn ih =>
      obtain ⟨session, next⟩ := t
      -- a session that is still fed has not ended
      have hgoes : ∀ f, next ≠ .escape f := by
        rintro f rfl
        exact absurd hn (by simp)
      have hP' := ih.2 hgoes
      rcases feed_cases hn with hsame | ⟨p, hok, hfeed⟩
      · rw [hsame]
        exact ⟨hk.weaken _ hP', fun _ => hP'⟩
      · rw [hfeed]
        cases hd : dispatch p.topicId (ofBuffer p.payload) session.tables with
        | error f =>
            rw [routeBody_error hok hd]
            exact ⟨hk.throws session p f hP' hok hd, fun hno => absurd rfl (hno f)⟩
        | ok tables =>
            rw [routeBody_ok hok hd]
            have hnext := hk.returns session p tables hP' hok hd
            exact ⟨hk.weaken _ hnext, fun _ => hnext⟩

/-- **The session rule.** It holds of every run, port failures included. -/
theorem session_invariant (hk : KeptBy dispatch P Q)
    (hfresh : P { tables := tables, dispatched := [] }) {wire : List (List UInt8)}
    {es : List PortEvent} {w : ReadWorld Handler (Session τ)}
    (hx : Lts.exec (ReadWorld.step (handle dispatch)) (startRead tables wire) es = some w) :
    Q w.user ∧ (w.escaped = none → P w.user) := by
  obtain ⟨used, rest, next, -, heats, hends⟩ := ReadWorld.served_reachable hx
  obtain ⟨hQ, hP⟩ := eats_kept hk hfresh heats
  refine ⟨hQ, fun hesc => hP fun f hf => ?_⟩
  rw [(hends f).mp hf] at hesc
  exact absurd hesc (by simp)

end Rule

/-- The session of a node is one of such a run. -/
theorem node_session {env : RosEnv} {P Q : Session Journal → Prop}
    (hk : KeptBy (journalled env) P Q) (hfresh : P { tables := .new, dispatched := [] })
    {w : NodeWorld} {r : ReadWorld Handler (Session Journal)} {s : WriteWorld}
    (h : Simulates env w r s) : Q w.session ∧ (w.escaped = none → P w.session) := by
  obtain ⟨rs, ws, -, hr, -⟩ := h
  obtain ⟨wire, events, -, -, hread⟩ := hr.runs []
  obtain ⟨hQ, hP⟩ := session_invariant hk hfresh hread
  rw [← hr.session]
  exact ⟨hQ, fun hesc => hP (hr.quiet hesc)⟩

/-! ## The stretches a node has received -/

theorem node_stretches {env : RosEnv} {es : List NodeEvent} {w : NodeWorld}
    (hx : Lts.exec (NodeWorld.step env) .start es = some w) :
    ∃ starts : List Nat,
      List.Forall₂ (fun start d => Stretch w.received start d.1 d.2) starts w.session.dispatched
        ∧ (starts.zip w.session.dispatched).Pairwise (fun f g => frameEnd f ≤ g.1) := by
  obtain ⟨r, s, rs, ws, -, hr, -⟩ := simulates_reachable hx
  obtain ⟨wire, events, hwire, -, hread⟩ := hr.runs []
  obtain ⟨used, rest, hst, hp⟩ := found_reachable (journalled env) Journal.new hread
  obtain ⟨starts, hframes, horder, -⟩ := hp.starts
  have hsession : (r.awaiting []).user = w.session := hr.session
  rw [List.flatten_nil, List.append_nil] at hwire
  rw [hwire] at hst
  rw [hsession] at hframes horder
  rw [hst]
  exact ⟨starts, hframes.imp fun _ _ h => h.append rest, horder⟩

/-- What was dispatched at `i` is a stretch of what was received. -/
theorem stretch_at {stream : List UInt8} {dispatched : List (UInt16 × List UInt8)}
    {starts : List Nat}
    (hframes : List.Forall₂ (fun start d => Stretch stream start d.1 d.2) starts dispatched)
    {i : Nat} {d : UInt16 × List UInt8} (hd : dispatched[i]? = some d) :
    ∃ start, starts[i]? = some start ∧ Stretch stream start d.1 d.2 := by
  obtain ⟨hi, rfl⟩ := List.getElem?_eq_some_iff.mp hd
  have hi' : i < starts.length := by
    rw [hframes.length_eq]
    exact hi
  exact ⟨starts[i], List.getElem?_eq_getElem hi', hframes.get hi' hi⟩

/-- Of two stretches the one that was dispatched first ends before the other begins. -/
theorem stretch_order {dispatched : List (UInt16 × List UInt8)}
    {starts : List Nat}
    (horder : (starts.zip dispatched).Pairwise (fun f g => frameEnd f ≤ g.1)) {i j start start' : Nat}
    {d d' : UInt16 × List UInt8} (hij : i < j) (hi : starts[i]? = some start)
    (hj : starts[j]? = some start') (hd : dispatched[i]? = some d) (hd' : dispatched[j]? = some d') :
    start + (d.2.length + 8) ≤ start' := by
  have hz : (starts.zip dispatched)[i]? = some (start, d) := by
    rw [List.getElem?_zip_eq_some]
    exact ⟨hi, hd⟩
  have hz' : (starts.zip dispatched)[j]? = some (start', d') := by
    rw [List.getElem?_zip_eq_some]
    exact ⟨hj, hd'⟩
  obtain ⟨hlt, heq⟩ := List.getElem?_eq_some_iff.mp hz
  obtain ⟨hlt', heq'⟩ := List.getElem?_eq_some_iff.mp hz'
  have hle := List.pairwise_iff_getElem.mp horder i j hlt hlt' hij
  rw [heq, heq'] at hle
  exact hle

/-! ## What a packet does -/

/-- The body is a registration, and this is what it registers. -/
def IsRegistration (body : List UInt8) (info : TopicInfo) : Prop :=
  ∃ s, getTopicInfo {} (ofBuffer body) = .ok (true, info, s)

/-- What a packet does to the journal, when its callback returns. -/
inductive Effect (env : RosEnv) (t : UInt16) (payload : List UInt8) (journal : Journal) :
    Journal → Prop where
  | unknown : journal.routing.callback t = none → Effect env t payload journal journal
  /-- A registration that `get_topic_info` refuses. -/
  | refused {info : TopicInfo} {s : RosStream} :
      (journal.routing.callback t = some .createPublisher
        ∨ journal.routing.callback t = some .createSubscriber) →
      getTopicInfo {} (ofBuffer payload) = .ok (false, info, s) →
      Effect env t payload journal journal
  | publisher {info : TopicInfo} {pub : SerialPublisher} :
      journal.routing.callback t = some .createPublisher → IsRegistration payload info →
      SerialPublisher.new env info = .ok pub →
      Effect env t payload journal { journal with
        routing := { journal.routing with
          publisher := Function.update journal.routing.publisher info.topicId (some pub)
          callback := Function.update journal.routing.callback info.topicId (some (.handle pub)) } }
  | subscription {info : TopicInfo} {sub : SerialSubscriber} :
      journal.routing.callback t = some .createSubscriber → IsRegistration payload info →
      SerialSubscriber.new env info = .ok sub →
      Effect env t payload journal { journal with
        routing := { journal.routing with
          subscriber := Function.update journal.routing.subscriber info.topicId (some sub) } }
  | data {pub : SerialPublisher} :
      journal.routing.callback t = some (.handle pub) →
      Effect env t payload journal
        { routing := { journal.routing with
            rosCalls := journal.routing.rosCalls ++ (pub.handle env (ofBuffer payload)).1 }
          handled := journal.handled ++ [{ topicInfo := pub.topicInfo, payload := payload
                                           calls := (pub.handle env (ofBuffer payload)).1 }] }

theorem published_ok {tables tables' : Tables} {out : List RosCall × Except Failure Unit}
    (h : published tables out = .ok tables') :
    ∃ calls, out.1 = calls ∧ tables' = { tables with rosCalls := tables.rosCalls ++ calls } := by
  obtain ⟨calls, result⟩ := out
  cases result with
  | error f => exact absurd h (by simp [published])
  | ok u => exact ⟨calls, rfl, (Except.ok.inj h).symm⟩

/-- What `journalled` makes of a packet, by what the routing step does. -/
theorem journalled_ok {env : RosEnv} {t : UInt16} {msg : RosStream} {journal journal' : Journal}
    (h : journalled env t msg journal = .ok journal') :
    ∃ routing, route env t msg journal.routing = .ok routing
      ∧ journal' = ⟨routing, journal.handled ++ Journal.entry env journal.routing t msg⟩ := by
  unfold journalled at h
  cases hr : route env t msg journal.routing with
  | error f =>
      rw [hr] at h
      exact absurd h (by simp)
  | ok routing =>
      rw [hr] at h
      exact ⟨routing, rfl, (Except.ok.inj h).symm⟩

/-- A packet that is not for a publisher leaves no entry. -/
theorem entry_other {env : RosEnv} {t : UInt16} {msg : RosStream} {tables : Tables}
    (h : ∀ pub, tables.callback t ≠ some (.handle pub)) : Journal.entry env tables t msg = [] := by
  unfold Journal.entry
  split
  · rename_i pub hpub
    exact absurd hpub (h pub)
  · rfl

theorem createPublisher_effect {env : RosEnv} {t : UInt16} {payload : List UInt8} {journal : Journal}
    {routing : Tables} (hc : journal.routing.callback t = some .createPublisher)
    (h : createPublisher env journal.routing (ofBuffer payload) = .ok routing) :
    Effect env t payload journal { journal with routing := routing } := by
  unfold createPublisher at h
  cases hget : getTopicInfo {} (ofBuffer payload) with
  | error e =>
      rw [hget] at h
      exact absurd h (by simp)
  | ok out =>
      obtain ⟨ok, info, s⟩ := out
      rw [hget] at h
      cases ok with
      | false =>
          obtain rfl := Except.ok.inj h
          exact Effect.refused (Or.inl hc) hget
      | true =>
          dsimp only at h
          cases hnew : SerialPublisher.new env info with
          | error f =>
              rw [hnew] at h
              exact absurd h (by simp)
          | ok pub =>
              rw [hnew] at h
              obtain rfl := Except.ok.inj h
              exact Effect.publisher hc ⟨s, hget⟩ hnew

theorem createSubscriber_effect {env : RosEnv} {t : UInt16} {payload : List UInt8} {journal : Journal}
    {routing : Tables} (hc : journal.routing.callback t = some .createSubscriber)
    (h : createSubscriber env journal.routing (ofBuffer payload) = .ok routing) :
    Effect env t payload journal { journal with routing := routing } := by
  unfold createSubscriber at h
  cases hget : getTopicInfo {} (ofBuffer payload) with
  | error e =>
      rw [hget] at h
      exact absurd h (by simp)
  | ok out =>
      obtain ⟨ok, info, s⟩ := out
      rw [hget] at h
      cases ok with
      | false =>
          obtain rfl := Except.ok.inj h
          exact Effect.refused (Or.inr hc) hget
      | true =>
          dsimp only at h
          cases hnew : SerialSubscriber.new env info with
          | error f =>
              rw [hnew] at h
              exact absurd h (by simp)
          | ok sub =>
              rw [hnew] at h
              obtain rfl := Except.ok.inj h
              exact Effect.subscription hc ⟨s, hget⟩ hnew

/-- **Everything a packet can do.** -/
theorem journalled_effect {env : RosEnv} {t : UInt16} {payload : List UInt8}
    {journal journal' : Journal}
    (h : journalled env t (ofBuffer payload) journal = .ok journal') :
    Effect env t payload journal journal' := by
  obtain ⟨routing, hroute, rfl⟩ := journalled_ok h
  cases hc : journal.routing.callback t with
  | none =>
      rw [entry_other (by simp [hc]), List.append_nil]
      unfold route at hroute
      rw [hc] at hroute
      obtain rfl := Except.ok.inj hroute
      exact Effect.unknown hc
  | some callback =>
      cases callback with
      | createPublisher =>
          rw [entry_other (by simp [hc]), List.append_nil]
          unfold route at hroute
          rw [hc] at hroute
          exact createPublisher_effect hc hroute
      | createSubscriber =>
          rw [entry_other (by simp [hc]), List.append_nil]
          unfold route at hroute
          rw [hc] at hroute
          exact createSubscriber_effect hc hroute
      | handle pub =>
          have hentry : Journal.entry env journal.routing t (ofBuffer payload)
              = [{ topicInfo := pub.topicInfo, payload := payload
                   calls := (pub.handle env (ofBuffer payload)).1 }] := by
            unfold Journal.entry
            rw [hc]
            rfl
          rw [route_handle hc] at hroute
          obtain ⟨calls, hcalls, rfl⟩ := published_ok hroute
          rw [hentry, ← hcalls]
          exact Effect.data hc

/-! ## From the device to ROS -/

theorem publisher_topicInfo {env : RosEnv} {info : TopicInfo} {pub : SerialPublisher}
    (h : SerialPublisher.new env info = .ok pub) : pub.topicInfo = info := by
  unfold SerialPublisher.new at h
  obtain ⟨_, -, h⟩ := bind_eq_ok.mp h
  obtain ⟨⟨_, d⟩, -, h⟩ := bind_eq_ok.mp h
  obtain rfl := Except.ok.inj h
  rfl

theorem subscriber_topicInfo {env : RosEnv} {info : TopicInfo} {sub : SerialSubscriber}
    (h : SerialSubscriber.new env info = .ok sub) : sub.topicInfo = info := by
  unfold SerialSubscriber.new at h
  obtain ⟨⟨_, d⟩, -, h⟩ := bind_eq_ok.mp h
  obtain ⟨_, -, h⟩ := bind_eq_ok.mp h
  obtain rfl := Except.ok.inj h
  rfl

/-- The packet at `j` was handled by a publisher that a packet before it had registered. -/
def HandledAt (env : RosEnv) (dispatched : List (UInt16 × List UInt8)) (h : Handled) : Prop :=
  ∃ (i j : Nat) (reg : List UInt8) (pub : SerialPublisher), i < j
    ∧ dispatched[i]? = some (TopicInfo.idPublisher, reg)
    ∧ IsRegistration reg h.topicInfo ∧ SerialPublisher.new env h.topicInfo = .ok pub
    ∧ dispatched[j]? = some (h.topicInfo.topicId, h.payload)
    ∧ h.calls = (pub.handle env (ofBuffer h.payload)).1

/-- Everything in the tables and in the journal goes back to packets that were dispatched. -/
structure Sourced (env : RosEnv) (session : Session Journal) : Prop where
  publishers : ∀ t, session.tables.routing.callback t = some .createPublisher →
    t = TopicInfo.idPublisher
  subscribers : ∀ t, session.tables.routing.callback t = some .createSubscriber →
    t = TopicInfo.idSubscriber
  callback : ∀ t pub, session.tables.routing.callback t = some (.handle pub) →
    ∃ reg, (TopicInfo.idPublisher, reg) ∈ session.dispatched ∧ IsRegistration reg pub.topicInfo
      ∧ SerialPublisher.new env pub.topicInfo = .ok pub ∧ pub.topicInfo.topicId = t
  subscriber : ∀ t sub, session.tables.routing.subscriber t = some sub →
    ∃ reg, (TopicInfo.idSubscriber, reg) ∈ session.dispatched ∧ IsRegistration reg sub.topicInfo
  handled : ∀ h ∈ session.tables.handled, HandledAt env session.dispatched h
  /-- No call was made for a data packet but by `handle`. -/
  calls : session.tables.routing.rosCalls = session.tables.handled.flatMap Handled.calls

section Sources

variable {env : RosEnv}

/-- What is in a list stays where it is when the list goes on. -/
theorem getElem?_more {α : Type} {l : List α} {i : Nat} {x : α} (h : l[i]? = some x)
    (more : List α) : (l ++ more)[i]? = some x := by
  obtain ⟨hi, -⟩ := List.getElem?_eq_some_iff.mp h
  rw [List.getElem?_append_left hi]
  exact h

theorem HandledAt.append {dispatched : List (UInt16 × List UInt8)} {h : Handled}
    (hh : HandledAt env dispatched h) (more : List (UInt16 × List UInt8)) :
    HandledAt env (dispatched ++ more) h := by
  obtain ⟨i, j, reg, pub, hij, hi, hreg, hnew, hj, hcalls⟩ := hh
  exact ⟨i, j, reg, pub, hij, getElem?_more hi more, hreg, hnew, getElem?_more hj more, hcalls⟩

theorem sourced_fresh : Sourced env { tables := .new, dispatched := [] } where
  publishers := onlyPublisher_fresh
  subscribers := by
    intro t ht
    by_contra hne
    by_cases hpub : t = TopicInfo.idPublisher
    · rw [hpub] at ht
      exact absurd (reserved_fresh.1.symm.trans ht) (by simp)
    · exact absurd ((fresh_callback hpub hne).symm.trans ht) (by simp)
  callback := by
    intro t pub ht
    by_cases hpub : t = TopicInfo.idPublisher
    · rw [hpub] at ht
      exact absurd (reserved_fresh.1.symm.trans ht) (by simp)
    · by_cases hsub : t = TopicInfo.idSubscriber
      · rw [hsub] at ht
        exact absurd (reserved_fresh.2.symm.trans ht) (by simp)
      · exact absurd ((fresh_callback hpub hsub).symm.trans ht) (by simp)
  subscriber := fun t sub ht => absurd ht (by simp [Journal.new, Tables.new])
  handled := by simp [Journal.new]
  calls := rfl

/-- A packet that changes no table. -/
theorem Sourced.extend {session : Session Journal} (h : Sourced env session)
    (d : UInt16 × List UInt8) :
    Sourced env { tables := session.tables, dispatched := session.dispatched ++ [d] } where
  publishers := h.publishers
  subscribers := h.subscribers
  callback := by
    intro t pub ht
    obtain ⟨reg, hmem, hrest⟩ := h.callback t pub ht
    exact ⟨reg, List.mem_append_left _ hmem, hrest⟩
  subscriber := by
    intro t sub ht
    obtain ⟨reg, hmem, hrest⟩ := h.subscriber t sub ht
    exact ⟨reg, List.mem_append_left _ hmem, hrest⟩
  handled := fun x hx => (h.handled x hx).append [d]
  calls := h.calls

/-- A publisher registration. -/
theorem Sourced.publisher {session : Session Journal} (h : Sourced env session) {reg : List UInt8}
    {info : TopicInfo} {pub : SerialPublisher} (hreg : IsRegistration reg info)
    (hnew : SerialPublisher.new env info = .ok pub) :
    Sourced env
      { tables := { session.tables with
          routing := { session.tables.routing with
            publisher := Function.update session.tables.routing.publisher info.topicId (some pub)
            callback := Function.update session.tables.routing.callback info.topicId
              (some (.handle pub)) } }
        dispatched := session.dispatched ++ [(TopicInfo.idPublisher, reg)] } := by
  have hext := h.extend (TopicInfo.idPublisher, reg)
  have hupdate : ∀ t callback, Function.update session.tables.routing.callback info.topicId
      (some (.handle pub)) t = some callback →
      (t = info.topicId ∧ callback = .handle pub)
        ∨ session.tables.routing.callback t = some callback := by
    intro t callback ht
    by_cases hid : t = info.topicId
    · rw [hid, Function.update_self] at ht
      exact Or.inl ⟨hid, (Option.some.inj ht).symm⟩
    · rw [Function.update_of_ne hid] at ht
      exact Or.inr ht
  refine ⟨?_, ?_, ?_, hext.subscriber, hext.handled, hext.calls⟩
  · intro t ht
    rcases hupdate t _ ht with ⟨-, hc⟩ | hold
    · exact absurd hc (by simp)
    · exact h.publishers t hold
  · intro t ht
    rcases hupdate t _ ht with ⟨-, hc⟩ | hold
    · exact absurd hc (by simp)
    · exact h.subscribers t hold
  · intro t pub' ht
    rcases hupdate t _ ht with ⟨hid, hc⟩ | hold
    · injection hc with hpub
      subst hpub
      have hinfo := publisher_topicInfo hnew
      refine ⟨reg, List.mem_append_right _ (List.mem_singleton.mpr rfl), ?_, ?_, ?_⟩
      · rw [hinfo]
        exact hreg
      · rw [hinfo]
        exact hnew
      · rw [hinfo]
        exact hid.symm
    · exact hext.callback t pub' hold

/-- A subscriber registration. -/
theorem Sourced.subscription {session : Session Journal} (h : Sourced env session)
    {reg : List UInt8} {info : TopicInfo} {sub : SerialSubscriber} (hreg : IsRegistration reg info)
    (hnew : SerialSubscriber.new env info = .ok sub) :
    Sourced env
      { tables := { session.tables with
          routing := { session.tables.routing with
            subscriber := Function.update session.tables.routing.subscriber info.topicId (some sub) } }
        dispatched := session.dispatched ++ [(TopicInfo.idSubscriber, reg)] } := by
  have hext := h.extend (TopicInfo.idSubscriber, reg)
  refine ⟨hext.publishers, hext.subscribers, hext.callback, ?_, hext.handled, hext.calls⟩
  intro t sub' ht
  have hupdate : Function.update session.tables.routing.subscriber info.topicId (some sub) t
      = some sub' := ht
  by_cases hid : t = info.topicId
  · rw [hid, Function.update_self] at hupdate
    obtain rfl := Option.some.inj hupdate
    refine ⟨reg, List.mem_append_right _ (List.mem_singleton.mpr rfl), ?_⟩
    rw [subscriber_topicInfo hnew]
    exact hreg
  · rw [Function.update_of_ne hid] at hupdate
    exact hext.subscriber t sub' hupdate

/-- A data packet. -/
theorem Sourced.data {session : Session Journal} (h : Sourced env session) {t : UInt16}
    {payload : List UInt8} {pub : SerialPublisher}
    (hcallback : session.tables.routing.callback t = some (.handle pub)) :
    Sourced env
      { tables :=
          { routing := { session.tables.routing with
              rosCalls := session.tables.routing.rosCalls ++ (pub.handle env (ofBuffer payload)).1 }
            handled := session.tables.handled ++ [{ topicInfo := pub.topicInfo, payload := payload
                                                    calls := (pub.handle env (ofBuffer payload)).1 }] }
        dispatched := session.dispatched ++ [(t, payload)] } := by
  have hext := h.extend (t, payload)
  refine ⟨hext.publishers, hext.subscribers, hext.callback, hext.subscriber, ?_, ?_⟩
  · intro x hx
    rcases List.mem_append.mp hx with hx | hx
    · exact hext.handled x hx
    · obtain rfl := List.mem_singleton.mp hx
      -- the publisher was registered by a packet before this one
      obtain ⟨reg, hmem, hreg, hnew, hid⟩ := h.callback t pub hcallback
      obtain ⟨i, hi, hget⟩ := List.getElem_of_mem hmem
      refine ⟨i, session.dispatched.length, reg, pub, hi, ?_, hreg, hnew, ?_, rfl⟩
      · exact getElem?_more (List.getElem?_eq_some_iff.mpr ⟨hi, hget⟩) _
      · rw [List.getElem?_append_right (Nat.le_refl _), Nat.sub_self, hid]
        rfl
  · dsimp only
    rw [h.calls, List.flatMap_append, List.flatMap_singleton]

theorem sourced_effect {session : Session Journal} {t : UInt16} {payload : List UInt8}
    {journal : Journal} (h : Sourced env session) (he : Effect env t payload session.tables journal) :
    Sourced env { tables := journal, dispatched := session.dispatched ++ [(t, payload)] } := by
  cases he with
  | unknown _ => exact h.extend (t, payload)
  | refused _ _ => exact h.extend (t, payload)
  | publisher hc hreg hnew =>
      obtain rfl := h.publishers t hc
      exact h.publisher hreg hnew
  | subscription hc hreg hnew =>
      obtain rfl := h.subscribers t hc
      exact h.subscription hreg hnew
  | data hc => exact h.data hc

theorem sourced_kept (env : RosEnv) : KeptBy (journalled env) (Sourced env) (Sourced env) where
  weaken := fun _ h => h
  returns := fun _ _ _ h _ hd => sourced_effect h (journalled_effect hd)
  throws := fun _ p _ h _ _ => h.extend (p.topicId, p.payload)

/-- In every state a node can be in, also in the middle of a tick. -/
theorem sourced_node {w : NodeWorld} {r : ReadWorld Handler (Session Journal)} {s : WriteWorld}
    (h : Simulates env w r s) : Sourced env w.session :=
  (node_session (sourced_kept env) sourced_fresh h).1

end Sources

/--
**What reaches ROS was sent, and registered before.** Whatever a node has been through,
each call of `handle` that has returned is for a packet the device sent, under an id that a
packet before it had registered, and made the calls of the publisher that registration
describes. These are all the calls of rmw and of `publish` that the session has recorded: a
call of `handle` that throws leaves no record, and the node ends with it.
-/
theorem handled_sourced (env : RosEnv) (es : List NodeEvent) (w : NodeWorld)
    (hx : Lts.exec (NodeWorld.step env) .start es = some w) :
    (∀ h ∈ w.session.tables.handled, ∃ reg start start' pub,
      Stretch w.received start TopicInfo.idPublisher reg ∧ IsRegistration reg h.topicInfo
        ∧ start + (reg.length + 8) ≤ start'
        ∧ Stretch w.received start' h.topicInfo.topicId h.payload
        ∧ SerialPublisher.new env h.topicInfo = .ok pub
        ∧ h.calls = (pub.handle env (ofBuffer h.payload)).1)
    ∧ w.session.tables.routing.rosCalls = w.session.tables.handled.flatMap Handled.calls := by
  obtain ⟨r, s, hsim⟩ := simulates_reachable hx
  have hsourced := sourced_node hsim
  obtain ⟨starts, hframes, horder⟩ := node_stretches hx
  refine ⟨?_, hsourced.calls⟩
  intro h hh
  obtain ⟨i, j, reg, pub, hij, hi, hreg, hnew, hj, hcalls⟩ := hsourced.handled h hh
  obtain ⟨start, hstart, hregister⟩ := stretch_at hframes hi
  obtain ⟨start', hstart', hdata⟩ := stretch_at hframes hj
  exact ⟨reg, start, start', pub, hregister, hreg, stretch_order horder hij hstart hstart' hi hj,
    hdata, hnew, hcalls⟩

/-- A device registers topic 125 and sends one value on it. -/
theorem handled_sourced_value :
    ∃ w h, Lts.exec (NodeWorld.step (dataEnv .boolean 1)) .start
        [.port (.arrive ((registerPacket 125 187).bytes
          ++ [0xFF, 0xFE, 1, 0, 0xFE, 125, 0, 1, 0x81])), .port (.receive 0 40), .tick []] = some w
      ∧ h ∈ w.session.tables.handled ∧ h.payload = [1]
      ∧ ∃ reg start start', Stretch w.received start TopicInfo.idPublisher reg
        ∧ start + (reg.length + 8) ≤ start'
        ∧ Stretch w.received start' h.topicInfo.topicId h.payload := by
  have hrun : (Lts.exec (NodeWorld.step (dataEnv .boolean 1)) .start
        [.port (.arrive ((registerPacket 125 187).bytes
          ++ [0xFF, 0xFE, 1, 0, 0xFE, 125, 0, 1, 0x81])), .port (.receive 0 40), .tick []]).map
      (fun w => w.session.tables.handled.map Handled.payload) = some [[1]] := by
    decide +kernel
  obtain ⟨w, hx, hone⟩ := Option.map_eq_some_iff.mp hrun
  obtain ⟨h, hmem, hpay⟩ : ∃ h ∈ w.session.tables.handled, h.payload = [1] := by
    refine List.mem_map.mp ?_
    rw [hone]
    exact List.mem_singleton.mpr rfl
  obtain ⟨reg, start, start', pub, hreg, -, hle, hdata, -, -⟩ := (handled_sourced _ _ w hx).1 h hmem
  exact ⟨w, h, hx, hmem, hpay, reg, start, start', hreg, hle, hdata⟩

/-! ## From ROS to the device -/

namespace WriteWorld

/--
What the port has received: of each frame that left the queue a piece from its front, the
whole of it if it was delivered, and then what it has taken of the one in flight.
-/
def Pieced (w : WriteWorld) : Prop :=
  ∃ pieces : List (List UInt8),
    List.Forall₂ (fun piece f => piece <+: f.1 ∧ (f.2 = Fate.delivered → piece = f.1))
      pieces w.settled
    ∧ w.port = pieces.flatten ++ w.underWay

/-- What is in flight is a piece of the front of the queue. -/
theorem underWay_single {w : WriteWorld} {op : WriteOp} (h : w.inFlight = [op]) :
    w.underWay = op.buffer.take op.sent := by
  unfold underWay
  rw [h, List.flatMap_singleton]

theorem step_pieced {w w' : WriteWorld} {e : WriteEvent}
    (h : Serial w.writer.sendBufs w.inFlight) (hp : w.Pieced) (hs : w.step e = some w') :
    w'.Pieced := by
  obtain ⟨pieces, hpieces, hport⟩ := hp
  rcases step_cases hs with ⟨_, _, _, _, _, rfl⟩ | ⟨i, payload, _, _, rfl⟩ |
    ⟨i, n, op, _, hop, _, hle, rfl⟩ | ⟨i, op, _, hop, hsent, rfl⟩ | ⟨i, op, _, hop, rfl⟩
  · exact ⟨pieces, hpieces, hport⟩
  · refine ⟨pieces, hpieces, ?_⟩
    rw [underWay_launch]
    exact hport
  · obtain ⟨rfl, hops, -, -⟩ := serial_inFlight h hop
    refine ⟨pieces, hpieces, ?_⟩
    have hnow : (w.inFlight.set 0 { op with sent := op.sent + n })
        = [{ op with sent := op.sent + n }] := by
      rw [hops]
      rfl
    show w.port ++ MemBlock.slice op.buffer op.sent n = pieces.flatten ++ _
    rw [underWay_single hnow, hport, underWay_single hops, List.append_assoc]
    congr 1
    exact (List.take_add ..).symm
  · -- what was under way is the whole frame now
    obtain ⟨rfl, hops, -, rest, hbufs⟩ := serial_inFlight h hop
    have hfront : (w.writer.sendBufs.take 1).map (fun frame => (frame, Fate.delivered))
        = [(op.buffer, Fate.delivered)] := by
      rw [hbufs]
      rfl
    refine ⟨pieces ++ [op.buffer], ?_, ?_⟩
    · show List.Forall₂ _ _ (w.settled ++ (w.writer.sendBufs.take 1).map _)
      rw [hfront]
      exact List.rel_append hpieces
        (List.Forall₂.cons ⟨List.prefix_refl _, fun _ => rfl⟩ List.Forall₂.nil)
    · rw [underWay_launch]
      show w.port = _ ++ (w.inFlight.eraseIdx 0).flatMap _
      rw [hport, underWay_single hops, hops, hsent, List.take_length, List.flatten_append]
      simp
  · -- what was under way stays the only piece of the frames that are given up
    obtain ⟨rfl, hops, -, rest, hbufs⟩ := serial_inFlight h hop
    refine ⟨pieces ++ (op.buffer.take op.sent :: rest.map fun _ => []), ?_, ?_⟩
    · show List.Forall₂ _ _ (w.settled ++ w.writer.sendBufs.map _)
      rw [hbufs]
      refine List.rel_append hpieces (List.Forall₂.cons ⟨List.take_prefix _ _, by simp⟩ ?_)
      rw [List.forall₂_map_left_iff, List.forall₂_map_right_iff]
      exact List.forall₂_same.mpr fun frame _ => ⟨List.nil_prefix, by simp⟩
    · show w.port = _ ++ (w.inFlight.eraseIdx 0 ++ []).flatMap _
      rw [hport, underWay_single hops, hops, List.flatten_append, List.flatten_cons]
      have hnothing : (rest.map fun _ => ([] : List UInt8)).flatten = [] := by
        rw [List.flatten_eq_nil_iff]
        intro piece hpiece
        obtain ⟨_, _, rfl⟩ := List.mem_map.mp hpiece
        rfl
      rw [hnothing]
      simp

theorem pieced_reachable {es : List WriteEvent} {w : WriteWorld}
    (h : Lts.exec step init es = some w) : w.Pieced := by
  have hboth : Serial w.writer.sendBufs w.inFlight ∧ w.Pieced := by
    refine Lts.exec_invariant (I := fun w => Serial w.writer.sendBufs w.inFlight ∧ w.Pieced) ?_
      ⟨Serial.idle, [], List.Forall₂.nil, rfl⟩ h
    intro u e u' hI hs
    exact ⟨step_serial hI.1 hs, step_pieced hI.1 hI.2 hs⟩
  exact hboth.2

/-- Of each call's frame the port has received a piece, in the order of the calls. -/
theorem pieces_of_calls {es : List WriteEvent} {w : WriteWorld}
    (h : Lts.exec step init es = some w) :
    ∃ pieces, List.Forall₂ (fun piece frame => piece <+: frame) pieces w.calls
      ∧ w.port = pieces.flatten := by
  obtain ⟨pieces, hpieces, hport⟩ := pieced_reachable h
  have hcalls : w.calls = w.settled.map Prod.fst ++ w.writer.sendBufs := accounted_reachable h
  have hsettled : List.Forall₂ (fun piece frame => piece <+: frame) pieces
      (w.settled.map Prod.fst) := by
    rw [List.forall₂_map_right_iff]
    exact hpieces.imp fun _ _ hp => hp.1
  have hserial := serial_reachable h
  rw [hcalls, hport]
  generalize hbufs : w.writer.sendBufs = bufs at hserial
  generalize hops : w.inFlight = ops at hserial
  cases hserial with
  | idle =>
      refine ⟨pieces, ?_, ?_⟩
      · rw [List.append_nil]
        exact hsettled
      · unfold underWay
        rw [hops]
        exact List.append_nil _
  | @busy frame rest sent hle =>
      refine ⟨pieces ++ (frame.take sent :: rest.map fun _ => []), ?_, ?_⟩
      · refine List.rel_append hsettled (List.Forall₂.cons (List.take_prefix _ _) ?_)
        rw [List.forall₂_map_left_iff]
        exact List.forall₂_same.mpr fun frame _ => List.nil_prefix
      · rw [underWay_single hops, List.flatten_append, List.flatten_cons]
        have hnothing : (rest.map fun _ => ([] : List UInt8)).flatten = [] := by
          rw [List.flatten_eq_nil_iff]
          intro piece hpiece
          obtain ⟨_, _, rfl⟩ := List.mem_map.mp hpiece
          rfl
        rw [hnothing, List.append_nil]

end WriteWorld

/-- The subscription of the message was registered by a packet that was dispatched. -/
def Subscribed (w : NodeWorld) : Prop :=
  ∀ m ∈ w.messages, ∃ reg, (TopicInfo.idSubscriber, reg) ∈ w.session.dispatched
    ∧ IsRegistration reg m.1.topicInfo

section Subscriptions

variable {env : RosEnv} {w w' : NodeWorld}

theorem Subscribed.of_prefix (h : Subscribed w) (hmessages : w'.messages = w.messages)
    (hdispatched : w.session.dispatched <+: w'.session.dispatched) : Subscribed w' := by
  intro m hm
  rw [hmessages] at hm
  obtain ⟨reg, hmem, hreg⟩ := h m hm
  exact ⟨reg, hdispatched.subset hmem, hreg⟩

theorem Subscribed.settle (h : Subscribed w) : Subscribed w.settle := by
  obtain ⟨stopped, hsame, -⟩ := NodeWorld.settle_spec w
  rw [hsame]
  exact h.of_prefix rfl (List.prefix_refl _)

theorem subscribed_turn (h : Subscribed w) (ht : NodeWorld.Turn env w w') : Subscribed w' := by
  cases ht with
  | activity ha =>
      obtain ⟨reader, pending, added, arrived, received, port, rfl, -⟩ := NodeWorld.activityStep_spec ha
      exact h.of_prefix rfl (List.prefix_refl _)
  | @handler x ready _ _ =>
      obtain ⟨c, reader, writer, session, pending, escaped, hsame, hmore, -⟩ :=
        NodeWorld.runHandler_spec env { w with ready := ready, ran := w.ran ++ [x] } x
      refine Subscribed.settle ?_
      rw [hsame]
      exact h.of_prefix rfl hmore
  | idle _ => exact h.settle
  | restart => exact h.of_prefix rfl (List.prefix_refl _)

theorem subscribed_message {r : ReadWorld Handler (Session Journal)} {s : WriteWorld}
    {topicId : UInt16} {deserialized : Except StdException (Option MsgObject)} (h : Subscribed w)
    (hsim : Simulates env w r s) (hm : w.message topicId deserialized = some w') : Subscribed w' := by
  unfold NodeWorld.message at hm
  split at hm
  · exact absurd hm (by simp)
  · rename_i sub hsub
    split at hm
    · obtain rfl := Option.some.inj hm
      exact h.of_prefix rfl (List.prefix_refl _)
    · rename_i writer started _
      obtain rfl := Option.some.inj hm
      obtain ⟨pending, hsame, -⟩ := NodeWorld.startWrite_spec
        { w with writer := writer, messages := w.messages ++ [(sub, deserialized)] } started
      rw [hsame]
      intro m hmem
      rcases List.mem_append.mp hmem with hmem | hmem
      · exact h m hmem
      · obtain rfl := List.mem_singleton.mp hmem
        exact (sourced_node hsim).subscriber topicId sub hsub

theorem subscribed_reachable {es : List NodeEvent}
    (hx : Lts.exec (NodeWorld.step env) .start es = some w) : Subscribed w := by
  have hstart : Subscribed .start := by
    obtain ⟨c, reader, pending, hsame⟩ := NodeWorld.start_spec
    rw [hsame]
    simp [Subscribed]
  refine simulated_invariant ?_ ?_ hstart hx
  · intro u u' r s _ hsub ht
    exact subscribed_turn hsub ht
  · intro u u' r s topicId deserialized hsim hsub hm
    exact subscribed_message hsub hsim hm

end Subscriptions

/--
**What reaches the device is asked for, and in order.** Whatever a node has been through,
failed writes included, the port has received of each message it was given a piece from the
front of its frame, one after the other in the order of the messages, and nothing else. The
topic of each message was registered by a packet the device sent.
-/
theorem port_sourced (env : RosEnv) (es : List NodeEvent) (w : NodeWorld)
    (hx : Lts.exec (NodeWorld.step env) .start es = some w) :
    (∃ pieces frames, w.port = pieces.flatten ∧ List.Forall₂ IsFrameOf frames w.messages
      ∧ List.Forall₂ (fun piece frame => piece <+: frame) pieces frames)
    ∧ ∀ m ∈ w.messages, ∃ reg start, Stretch w.received start TopicInfo.idSubscriber reg
      ∧ IsRegistration reg m.1.topicInfo := by
  obtain ⟨r, s, rs, ws, -, -, hw⟩ := simulates_reachable hx
  obtain ⟨events, -, hwrite⟩ := hw.runs
  obtain ⟨pieces, hpieces, hport⟩ := WriteWorld.pieces_of_calls hwrite
  obtain ⟨starts, hframes, -⟩ := node_stretches hx
  refine ⟨⟨pieces, s.calls, hw.port.symm.trans hport, hw.calls, hpieces⟩, ?_⟩
  intro m hm
  obtain ⟨reg, hmem, hreg⟩ := subscribed_reachable hx m hm
  obtain ⟨i, hi, hget⟩ := List.getElem_of_mem hmem
  obtain ⟨start, -, hstretch⟩ := stretch_at hframes (List.getElem?_eq_some_iff.mpr ⟨hi, hget⟩)
  exact ⟨reg, start, hstretch, hreg⟩

/-- A message whose write fails after four bytes. -/
theorem port_sourced_cut :
    ∃ (w : NodeWorld) (pieces : List (List UInt8)),
      Lts.exec (NodeWorld.step (dataEnv .boolean 1)) .start
        [.port (.arrive subscribePacket.bytes), .port (.receive 0 31), .tick [],
          .message 101 (.ok (some [[.raw [1]]])), .port (.take 1 4), .tick [], .port (.fail 1),
          .tick []] = some w
      ∧ w.port = [0xFF, 0xFE, 1, 0] ∧ w.port = pieces.flatten
      ∧ pieces.length = w.messages.length ∧ w.messages.length = 1 := by
  have hrun : (Lts.exec (NodeWorld.step (dataEnv .boolean 1)) .start
        [.port (.arrive subscribePacket.bytes), .port (.receive 0 31), .tick [],
          .message 101 (.ok (some [[.raw [1]]])), .port (.take 1 4), .tick [], .port (.fail 1),
          .tick []]).map (fun w => (w.port, w.messages.length)) = some ([0xFF, 0xFE, 1, 0], 1) := by
    decide +kernel
  obtain ⟨w, hx, hends⟩ := Option.map_eq_some_iff.mp hrun
  obtain ⟨hport, hone⟩ := Prod.mk.inj hends
  obtain ⟨pieces, frames, hflatten, hframes, hpieces⟩ := (port_sourced _ _ w hx).1
  exact ⟨w, pieces, hx, hport, hflatten, hpieces.length_eq.trans hframes.length_eq, hone⟩

end RosserialServer
