import RosserialServer.Proof.ReadRefine
import RosserialServer.Proof.StreamReads
import RosserialServer.Session.ReadPhases

/-!
# What the session makes of the flat stream

By `settles` the session may be studied as a reader of the flat stream,
`sessionReader`. Here each handler is evaluated on the bytes it asked for, and the
phases are put together to whole packets: a packet whose header is intact is consumed
exactly, whatever its contents are, and it is dispatched when its checksum holds
(`packet_eats`).
-/

namespace RosserialServer

open Bytes RosStream

variable {τ : Type}

/-- The session as a reader of the flat stream. -/
abbrev sessionReader (dispatch : Dispatch τ) : Demand (Session τ × Next Handler) UInt8 :=
  flat (handle dispatch) readerCapacity

/-! ## The handlers -/

theorem readAsyncFirst_spec (b : UInt8) :
    readAsyncFirst (ofBuffer [b])
      = if b = 0xFF then .read 1 .readAsyncSecond else readAsyncHead := by
  obtain ⟨s, hread, -⟩ := readUInt8_cons (reading_ofBuffer [b])
  unfold readAsyncFirst
  rw [hread]

theorem readAsyncSecond_spec (b : UInt8) :
    readAsyncSecond (ofBuffer [b])
      = if b = 0xFE then .read 5 .readLength
        else if b = 0xFF then .escape (.thrown versionNotApplicable)
        else readAsyncHead := by
  obtain ⟨s, hread, -⟩ := readUInt8_cons (reading_ofBuffer [b])
  unfold readAsyncSecond
  rw [hread]

/-- The 16-bit word two bytes spell. -/
def word (lo hi : UInt8) : UInt16 := UInt16.ofNat (leNat [lo, hi])

theorem word_toNat (lo hi : UInt8) : (word lo hi).toNat = lo.toNat + 256 * hi.toNat := by
  have h1 := lo.toNat_lt
  have h2 := hi.toNat_lt
  unfold word
  rw [UInt16.toNat_ofNat']
  simp only [leNat]
  omega

theorem leBytes_word (lo hi : UInt8) : leBytes 2 (word lo hi).toNat = [lo, hi] := by
  have h : (word lo hi).toNat = leNat [lo, hi] := by
    rw [word_toNat]
    simp only [leNat]
    omega
  rw [h]
  exact leBytes_leNat [lo, hi]

theorem word_leBytes (val : UInt16) :
    ∃ lo hi, leBytes 2 val.toNat = [lo, hi] ∧ word lo hi = val := by
  refine ⟨UInt8.ofNat val.toNat, UInt8.ofNat (val.toNat / 256), rfl, ?_⟩
  have hlt : val.toNat < 256 ^ 2 := val.toNat_lt
  show UInt16.ofNat (leNat (leBytes 2 val.toNat)) = val
  rw [leNat_leBytes hlt]
  exact UInt16.ofNat_toNat

theorem readLength_spec (lo hi check t0 t1 : UInt8) :
    readLength (ofBuffer [lo, hi, check, t0, t1])
      = if lengthAccepted (word lo hi) check then
          .read ((word lo hi).toNat + 1) (.readBody (word t0 t1))
        else readAsyncHead := by
  obtain ⟨s₁, hlen, h₁⟩ := readUInt16_ok (reading_ofBuffer [lo, hi, check, t0, t1])
  obtain ⟨s₂, hcheck, h₂⟩ := readUInt8_cons h₁
  obtain ⟨s₃, htopic, -⟩ := readUInt16_ok h₂
  unfold readLength
  rw [hlen]
  dsimp only
  rw [hcheck]
  dsimp only
  rw [htopic]
  show (if (!lengthAccepted (word lo hi) check) = true then readAsyncHead else _) = _
  cases lengthAccepted (word lo hi) check <;> rfl

/-- What `read_body` does once it has cut the body and its checksum apart. -/
def routeBody (dispatch : Dispatch τ) (session : Session τ) (topicId : UInt16)
    (body : List UInt8) (check : UInt8) : Session τ × Next Handler :=
  if bodyAccepted (datasumForCheckStream (ofBuffer body)) (datasumForCheck topicId) check then
    match dispatch topicId (ofBuffer body) session.tables with
    | .error f => ({ session with dispatched := session.dispatched ++ [(topicId, body)] }, .escape f)
    | .ok tables =>
        ({ tables := tables, dispatched := session.dispatched ++ [(topicId, body)] },
          readAsyncHead)
  else (session, readAsyncHead)

theorem readBody_spec (dispatch : Dispatch τ) (session : Session τ) (topicId : UInt16)
    {body : List UInt8} {check : UInt8} (h : body.length < 2 ^ 31 - 1) :
    readBody dispatch session (ofBuffer (body ++ [check])) topicId
      = routeBody dispatch session topicId body check := by
  have hread := reading_ofBuffer (body ++ [check])
  have hwhole : (body ++ [check]).length = body.length + 1 := by simp
  have hlen : (ofBuffer (body ++ [check])).getLength - 1 = body.length := by
    rw [hread.getLength, hwhole, castInt_small (by omega), Nat.add_sub_cancel]
  obtain ⟨s₁, hbody, h₁⟩ := readStream_ok hread
  obtain ⟨s₂, hcheck, -⟩ := readUInt8_cons h₁
  unfold readBody
  rw [hlen, hbody]
  dsimp only
  rw [hcheck]
  unfold routeBody
  dsimp only
  cases bodyAccepted (datasumForCheckStream (ofBuffer body)) (datasumForCheck topicId) check with
  | false => rfl
  | true =>
      rw [if_neg (by simp), if_pos rfl]
      show (match dispatch topicId (ofBuffer body) session.tables with
        | .error f => _
        | .ok tables => _) = _
      cases dispatch topicId (ofBuffer body) session.tables <;> rfl

/-! ## The phases -/

section Phases

variable (dispatch : Dispatch τ) (session : Session τ)

/-- Serving one request: the handler is run on exactly the bytes it asked for. -/
theorem eats_request (k : Handler) (chunk : List UInt8)
    (h : 0 < chunk.length ∧ chunk.length ≤ readerCapacity) :
    (sessionReader dispatch).Eats (session, .read chunk.length k) chunk
      (handle dispatch k session (ofBuffer chunk)) :=
  Demand.Eats.single (flat_need_read h)

theorem eats_first (b : UInt8) :
    (sessionReader dispatch).Eats (session, readAsyncHead) [b]
      (session, if b = 0xFF then .read 1 .readAsyncSecond else readAsyncHead) := by
  have := eats_request dispatch session .readAsyncFirst [b] (by simp [readerCapacity])
  rw [show handle dispatch .readAsyncFirst session (ofBuffer [b])
    = (session, readAsyncFirst (ofBuffer [b])) from rfl, readAsyncFirst_spec] at this
  exact this

theorem eats_other {b : UInt8} (h : b ≠ 0xFF) :
    (sessionReader dispatch).Eats (session, readAsyncHead) [b] (session, readAsyncHead) := by
  have := eats_first dispatch session b
  rwa [if_neg h] at this

/-- The version byte, after the sync flag. -/
theorem eats_second (b : UInt8) :
    (sessionReader dispatch).Eats (session, readAsyncHead) [0xFF, b]
      (session, if b = 0xFE then .read 5 .readLength
        else if b = 0xFF then .escape (.thrown versionNotApplicable)
        else readAsyncHead) := by
  have hflag := eats_first dispatch session 0xFF
  rw [if_pos rfl] at hflag
  have := eats_request dispatch session .readAsyncSecond [b] (by simp [readerCapacity])
  rw [show handle dispatch .readAsyncSecond session (ofBuffer [b])
    = (session, readAsyncSecond (ofBuffer [b])) from rfl, readAsyncSecond_spec] at this
  exact hflag.trans this

/-- A whole header: the sync bytes, the length, its check and the topic id. -/
theorem eats_header (lo hi check t0 t1 : UInt8) :
    (sessionReader dispatch).Eats (session, readAsyncHead) [0xFF, 0xFE, lo, hi, check, t0, t1]
      (session, if lengthAccepted (word lo hi) check then
          .read ((word lo hi).toNat + 1) (.readBody (word t0 t1))
        else readAsyncHead) := by
  have hsync := eats_second dispatch session 0xFE
  rw [if_pos rfl] at hsync
  have := eats_request dispatch session .readLength [lo, hi, check, t0, t1] (by simp [readerCapacity])
  rw [show handle dispatch .readLength session (ofBuffer [lo, hi, check, t0, t1])
    = (session, readLength (ofBuffer [lo, hi, check, t0, t1])) from rfl, readLength_spec] at this
  exact hsync.trans this

theorem eats_body {topicId : UInt16} {body : List UInt8} (check : UInt8)
    (h : body.length < readerCapacity) :
    (sessionReader dispatch).Eats (session, .read (body.length + 1) (.readBody topicId))
      (body ++ [check]) (routeBody dispatch session topicId body check) := by
  have hlen : (body ++ [check]).length = body.length + 1 := by simp
  have := eats_request dispatch session (.readBody topicId) (body ++ [check])
    (by rw [hlen]; exact ⟨Nat.succ_pos _, h⟩)
  rw [hlen] at this
  rw [show handle dispatch (.readBody topicId) session (ofBuffer (body ++ [check]))
    = readBody dispatch session (ofBuffer (body ++ [check])) topicId from rfl,
    readBody_spec dispatch session topicId (by unfold readerCapacity at h; omega)] at this
  exact this

end Phases

/-! ## Packets -/

/-- The check byte that goes with a length. -/
def lengthCheck (length : UInt16) : UInt8 := 0xFF - datasumForCheck length

theorem lengthAccepted_iff (length : UInt16) (check : UInt8) :
    lengthAccepted length check ↔ check = lengthCheck length := by
  have h1 := (datasumForCheck length).toNat_lt
  have h2 := check.toNat_lt
  unfold lengthAccepted lengthCheck
  rw [beq_iff_eq, ← UInt8.toNat_inj, UInt8.toNat_sub]
  show _ + _ = 255 ↔ _ = (2 ^ 8 - _ + 255) % 2 ^ 8
  omega

/-- A packet with an intact header; its contents may be anything. -/
structure Packet where
  topicId : UInt16
  payload : List UInt8
  checksum : UInt8
  /-- The length fits its field. -/
  short : payload.length < 2 ^ 16

namespace Packet

/-- The length field. -/
def length (p : Packet) : UInt16 := UInt16.ofNat p.payload.length

/-- Sync bytes, length and length check. -/
def header (p : Packet) : List UInt8 :=
  [0xFF, 0xFE] ++ leBytes 2 p.length.toNat ++ [lengthCheck p.length]

/-- Topic id, payload and checksum. -/
def contents (p : Packet) : List UInt8 := leBytes 2 p.topicId.toNat ++ p.payload ++ [p.checksum]

def bytes (p : Packet) : List UInt8 := p.header ++ p.contents

/-- The test of `read_body`. -/
def accepted (p : Packet) : Bool :=
  bodyAccepted (datasumForCheckStream (ofBuffer p.payload)) (datasumForCheck p.topicId) p.checksum

/-- What `read_body` dispatches for the packet. -/
def delivered (p : Packet) : Option (UInt16 × List UInt8) :=
  if p.accepted then some (p.topicId, p.payload) else none

theorem length_toNat (p : Packet) : p.length.toNat = p.payload.length := by
  unfold length
  rw [UInt16.toNat_ofNat']
  exact Nat.mod_eq_of_lt p.short

theorem length_bytes (p : Packet) : p.bytes.length = p.payload.length + 8 := by
  unfold bytes header contents
  simp only [List.length_append, length_leBytes, List.length_cons, List.length_nil]
  omega

/-- The packet in the order its bytes are read. -/
theorem bytes_eq (p : Packet) : ∃ lo hi t0 t1, word lo hi = p.length ∧ word t0 t1 = p.topicId
    ∧ p.bytes = [0xFF, 0xFE, lo, hi, lengthCheck p.length, t0, t1] ++ (p.payload ++ [p.checksum]) := by
  obtain ⟨lo, hi, hlen, hw⟩ := word_leBytes p.length
  obtain ⟨t0, t1, htopic, ht⟩ := word_leBytes p.topicId
  refine ⟨lo, hi, t0, t1, hw, ht, ?_⟩
  unfold bytes header contents
  rw [hlen, htopic]
  rfl

end Packet

/-- **A packet with an intact header is consumed exactly.** -/
theorem packet_eats (dispatch : Dispatch τ) (session : Session τ) (p : Packet)
    (h : p.payload.length < readerCapacity) :
    (sessionReader dispatch).Eats (session, readAsyncHead) p.bytes
      (routeBody dispatch session p.topicId p.payload p.checksum) := by
  obtain ⟨lo, hi, t0, t1, hw, ht, hbytes⟩ := p.bytes_eq
  have hhead := eats_header dispatch session lo hi (lengthCheck p.length) t0 t1
  rw [hw, if_pos ((lengthAccepted_iff _ _).mpr rfl), ht, p.length_toNat] at hhead
  rw [hbytes]
  exact hhead.trans (eats_body dispatch session p.checksum h)

/-- The callbacks that are routed to return normally. -/
def Returns (dispatch : Dispatch τ) : Prop :=
  ∀ topicId body tables, ∃ tables', dispatch topicId body tables = .ok tables'

/-- Callbacks that do nothing. -/
def ignoring : Dispatch Unit := fun _ _ tables => .ok tables

theorem ignoring_returns : Returns ignoring := fun _ _ tables => ⟨tables, rfl⟩

theorem routeBody_returns {dispatch : Dispatch τ} (hr : Returns dispatch) (session : Session τ)
    (p : Packet) :
    ∃ tables, routeBody dispatch session p.topicId p.payload p.checksum
      = (⟨tables, session.dispatched ++ p.delivered.toList⟩, readAsyncHead) := by
  unfold routeBody Packet.delivered Packet.accepted
  cases bodyAccepted (datasumForCheckStream (ofBuffer p.payload)) (datasumForCheck p.topicId)
      p.checksum with
  | false => exact ⟨session.tables, by simp⟩
  | true =>
      obtain ⟨tables, hd⟩ := hr p.topicId (ofBuffer p.payload) session.tables
      refine ⟨tables, ?_⟩
      rw [if_pos rfl, hd]
      rfl

/-- **A run of packets is consumed exactly**, and what is dispatched depends on each alone. -/
theorem packets_eats {dispatch : Dispatch τ} (hr : Returns dispatch) {ps : List Packet}
    (h : ∀ p ∈ ps, p.payload.length < readerCapacity) (session : Session τ) :
    ∃ tables, (sessionReader dispatch).Eats (session, readAsyncHead) (ps.flatMap Packet.bytes)
      (⟨tables, session.dispatched ++ ps.filterMap Packet.delivered⟩, readAsyncHead) := by
  induction ps generalizing session with
  | nil => exact ⟨session.tables, by simpa using Demand.Eats.refl _⟩
  | cons p ps ih =>
      obtain ⟨tables₁, hroute⟩ := routeBody_returns hr session p
      have hp := packet_eats dispatch session p (h p (by simp))
      rw [hroute] at hp
      obtain ⟨tables, hps⟩ := ih (fun q hq => h q (by simp [hq]))
        ⟨tables₁, session.dispatched ++ p.delivered.toList⟩
      refine ⟨tables, ?_⟩
      have := hp.trans hps
      rw [List.append_assoc] at this
      rw [List.flatMap_cons, List.filterMap_cons]
      cases hd : p.delivered with
      | none => rw [hd] at this; exact this
      | some d => rw [hd] at this; exact this

/-- Where a run of packets leaves the session, however it is cut into chunks. -/
structure Idle (dispatched : List (UInt16 × List UInt8)) (w : ReadWorld Handler (Session τ)) :
    Prop where
  dispatched : w.user.dispatched = dispatched
  /-- The session waits for a new head. -/
  head : w.phase = some readAsyncHead
  unread : w.unread = []

theorem packets_settle {dispatch : Dispatch τ} (hr : Returns dispatch) {ps : List Packet}
    (h : ∀ p ∈ ps, p.payload.length < readerCapacity) (tables : τ) {wire : List (List UInt8)}
    (hw : wire.flatten = ps.flatMap Packet.bytes) :
    Lts.Inevitably (ReadWorld.quietStep (handle dispatch))
      (Idle (ps.filterMap Packet.delivered)) (startRead tables wire) := by
  obtain ⟨tables', heats⟩ := packets_eats hr h { tables := tables, dispatched := [] }
  have hstarved : (sessionReader dispatch).Starved
      (⟨tables', [] ++ ps.filterMap Packet.delivered⟩, readAsyncHead) [] :=
    fun n hn => (sessionReader dispatch).need_pos _ n hn
  have hhalts := heats.halts (Demand.Halts.refl hstarved)
  rw [List.append_nil, ← hw] at hhalts
  refine (ReadWorld.settles hhalts).mono fun w hrest => ⟨?_, hrest.phase, hrest.unread⟩
  rw [hrest.user]
  rfl

end RosserialServer
