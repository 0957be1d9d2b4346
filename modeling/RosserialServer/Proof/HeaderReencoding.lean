import RosserialServer.Proof.HeaderSeq
import RosserialServer.Proof.Reencoding

/-!
# Encoding what was decoded, header by header

A decoded payload should come back byte for byte, except that the `seq` in front of a
`std_msgs/Header` is zero. The code drops four bytes in front of every member that is
called `header` and has a `stamp`, whatever its type is, and writes zeros for them. With
the type names put back, `pieces` marks those bytes, and says which stood in front of a
header: the payload is reproduced exactly when the others were zero (`reencodes_iff`).
-/

namespace RosserialServer

open Bytes RosStream StreamDeserialization
open NamedMember (eraseAll isHeader)

/-- What the bytes of an item are to the decoder. -/
inductive Mark where
  /-- Part of the value. -/
  | value
  /-- The four bytes dropped in front of a message, which is a `std_msgs/Header` or is not. -/
  | seq (header : Bool)
  deriving DecidableEq, Repr

mutual

def memberPieces : NamedMember → List (Item × Mark)
  | ⟨name, typeId, array, messageNamespace, messageName, subMembers⟩ =>
      if array = .single ∧ typeId = .message then
        (if isStdHeader name (eraseAll subMembers) then
          [(.scalar 4,
            .seq (isHeader ⟨name, typeId, array, messageNamespace, messageName, subMembers⟩))]
        else []) ++ pieces subMembers
      else (memberLayout ⟨name, typeId, array, eraseAll subMembers⟩).map fun item => (item, .value)

/-- The layout of a type, with the `seq`s marked. -/
def pieces : List NamedMember → List (Item × Mark)
  | [] => []
  | member :: members => memberPieces member ++ pieces members

end

/-- How many bytes an item takes up in front of `bytes`. -/
def Item.width : Item → List UInt8 → Nat
  | .scalar n, _ => n
  | .text, bytes => 4 + leNat (bytes.take 4)
  | .unsupported, _ => 0

/-- The bytes of each item of a layout. -/
def cut : List (Item × Mark) → List UInt8 → List (Mark × List UInt8)
  | [], _ => []
  | (item, mark) :: items, bytes =>
      (mark, bytes.take (item.width bytes)) :: cut items (bytes.drop (item.width bytes))

/-- The bytes with zeros for some of the marked ones. -/
def zeroed (p : Mark → Bool) (cuts : List (Mark × List UInt8)) : List UInt8 :=
  cuts.flatMap fun c => if p c.1 then List.replicate c.2.length 0 else c.2

/-- `consumed` with zeros for each `seq` in front of a `std_msgs/Header`. -/
def seqsZeroed (members : List NamedMember) (consumed : List UInt8) : List UInt8 :=
  zeroed (fun mark => mark == .seq true) (cut (pieces members) consumed)

/--
The object decoded from `payload` is encoded, with success, to the bytes that were consumed,
but for zeros in each `seq` of a header; and what lies behind those bytes does not matter,
as long as an `int` holds the length.
-/
def Reproduces (members : List NamedMember) (payload : List UInt8) (msgObj obj : MsgObject)
    (s : RosStream) : Prop :=
  ∃ consumed rest, payload = consumed ++ rest ∧ s.Reading rest
    ∧ (∀ buffer : WriteBuffer, ∃ buffer',
        serializedStructToRos1 obj buffer (eraseAll members) = .ok (true, buffer')
          ∧ buffer'.written = buffer.written ++ seqsZeroed members consumed)
    ∧ ∀ tail, (consumed ++ tail).length < 2 ^ 31 → ∃ s',
        deserializeRos1ToStruct (ofBuffer (consumed ++ tail)) msgObj (eraseAll members)
          = .ok (true, obj, s') ∧ s'.Reading tail

/-- The four bytes dropped in front of what only looks like a header are zero. -/
def StrayZero (members : List NamedMember) (payload : List UInt8) : Prop :=
  ∀ c ∈ cut (pieces members) payload, c.1 = .seq false → ∀ b ∈ c.2, b = 0

instance (members : List NamedMember) (payload : List UInt8) :
    Decidable (StrayZero members payload) :=
  inferInstanceAs (Decidable (∀ c ∈ cut (pieces members) payload,
    c.1 = .seq false → ∀ b ∈ c.2, b = 0))

/-! ## Cutting -/

/-- Whatever follows on both sides, the items take these bytes. -/
def CutInto (items : List (Item × Mark)) (bytes : List UInt8) (cuts : List (Mark × List UInt8)) :
    Prop :=
  ∀ items' tail, cut (items ++ items') (bytes ++ tail) = cuts ++ cut items' tail

theorem CutInto.eq {items : List (Item × Mark)} {bytes : List UInt8}
    {cuts : List (Mark × List UInt8)} (h : CutInto items bytes cuts) (tail : List UInt8) :
    cut items (bytes ++ tail) = cuts := by
  have hcut := h [] tail
  rwa [List.append_nil, cut, List.append_nil] at hcut

theorem CutInto.nil : CutInto [] [] [] := fun _ _ => rfl

theorem CutInto.append {items items' : List (Item × Mark)} {bytes bytes' : List UInt8}
    {cuts cuts' : List (Mark × List UInt8)} (h : CutInto items bytes cuts)
    (h' : CutInto items' bytes' cuts') :
    CutInto (items ++ items') (bytes ++ bytes') (cuts ++ cuts') := by
  intro items'' tail
  rw [List.append_assoc, List.append_assoc, h, h', List.append_assoc]

theorem CutInto.item {item : Item} {mark : Mark} {bytes : List UInt8}
    (h : ∀ tail, item.width (bytes ++ tail) = bytes.length) :
    CutInto [(item, mark)] bytes [(mark, bytes)] := by
  intro items' tail
  rw [List.singleton_append, cut, h, List.take_left, List.drop_left]
  rfl

theorem CutInto.scalar {n : Nat} {mark : Mark} {raw : List UInt8} (h : raw.length = n) :
    CutInto [(.scalar n, mark)] raw [(mark, raw)] :=
  CutInto.item fun _ => h.symm

theorem CutInto.text {text : List UInt8} (short : text.length ≤ 400) :
    CutInto [(.text, .value)] (leBytes 4 text.length ++ text)
      [(.value, leBytes 4 text.length ++ text)] := by
  refine CutInto.item fun tail => ?_
  rw [Item.width, List.append_assoc, List.take_left' (length_leBytes 4 _),
    leNat_leBytes (by omega), List.length_append, length_leBytes]

theorem CutInto.doubles {raws : List (List UInt8)} (each : ∀ raw ∈ raws, raw.length = 8) :
    CutInto (List.replicate raws.length (.scalar 8, .value)) raws.flatten
      (raws.map fun raw => (.value, raw)) := by
  induction raws with
  | nil => exact CutInto.nil
  | cons raw raws ih =>
      exact (CutInto.scalar (each raw (by simp))).append
        (ih fun x hx => each x (List.mem_cons_of_mem _ hx))

theorem zeroed_append (p : Mark → Bool) (cuts cuts' : List (Mark × List UInt8)) :
    zeroed p (cuts ++ cuts') = zeroed p cuts ++ zeroed p cuts' := List.flatMap_append

theorem zeroed_value (raw : List UInt8) (p : Mark → Bool) (h : p .value = false) :
    zeroed p [(.value, raw)] = raw := by
  unfold zeroed
  rw [List.flatMap_singleton, h, if_neg (by simp)]

theorem zeroed_seq {seq : List UInt8} (four : seq.length = 4) {header : Bool} (p : Mark → Bool)
    (h : p (.seq header) = true) : zeroed p [(.seq header, seq)] = leBytes 4 0 := by
  unfold zeroed
  rw [List.flatMap_singleton, h, if_pos rfl, four]
  rfl

/-- Zeros of the same length are the same bytes exactly where the bytes are zero. -/
theorem zeroed_eq_iff {p q : Mark → Bool} {cuts : List (Mark × List UInt8)} :
    zeroed p cuts = zeroed q cuts ↔ ∀ c ∈ cuts, p c.1 ≠ q c.1 → ∀ b ∈ c.2, b = 0 := by
  induction cuts with
  | nil => simp [zeroed]
  | cons c cuts ih =>
      have hlen : (if p c.1 then List.replicate c.2.length 0 else c.2).length
          = (if q c.1 then List.replicate c.2.length 0 else c.2).length := by
        split <;> split <;> simp
      have hone : (if p c.1 then List.replicate c.2.length (0 : UInt8) else c.2)
            = (if q c.1 then List.replicate c.2.length 0 else c.2)
          ↔ (p c.1 ≠ q c.1 → ∀ b ∈ c.2, b = 0) := by
        cases p c.1 <;> cases q c.1 <;> simp [List.eq_replicate_iff, eq_comm]
      unfold zeroed at ih ⊢
      rw [List.flatMap_cons, List.flatMap_cons, List.forall_mem_cons, ← ih, ← hone]
      constructor
      · exact fun h => List.append_inj h hlen
      · rintro ⟨hc, hcuts⟩
        rw [hc, hcuts]

/-- The code and ROS 1 treat differently what looks like a header and is none. -/
theorem stray_iff (mark : Mark) : (mark != .value) ≠ (mark == .seq true) ↔ mark = .seq false := by
  rcases mark with _ | (_ | _) <;> decide

/-! ## The pieces of an echo -/

theorem eraseAll_cons_inv {named : List NamedMember} {member : MessageMember}
    {members : List MessageMember} (h : eraseAll named = member :: members) :
    ∃ messageNamespace messageName subMembers rest,
      named = ⟨member.name, member.typeId, member.array, messageNamespace, messageName,
        subMembers⟩ :: rest
      ∧ eraseAll subMembers = member.members ∧ eraseAll rest = members := by
  cases named with
  | nil => exact absurd h (by simp [eraseAll])
  | cons m rest =>
      obtain ⟨name, typeId, array, messageNamespace, messageName, subMembers⟩ := m
      rw [eraseAll, NamedMember.erase] at h
      obtain ⟨rfl, rfl⟩ := List.cons.inj h
      exact ⟨messageNamespace, messageName, subMembers, rest, rfl, rfl, rfl⟩

/-- Where the pieces are cut, and that the echo is the same bytes with every `seq` at zero. -/
theorem Echo.cut {members : List MessageMember} {obj : MsgObject} {xs ys : List UInt8}
    (h : Echo members obj xs ys) : ∀ {named : List NamedMember}, eraseAll named = members →
      ∃ cuts, CutInto (pieces named) xs cuts ∧ ys = zeroed (fun mark => mark != .value) cuts := by
  induction h with
  | nil =>
      intro named hnamed
      cases named with
      | nil => exact ⟨[], CutInto.nil, rfl⟩
      | cons m rest => exact absurd hnamed (by simp [eraseAll])
  | @scalar name typeId _ _ _ raw _ _ size _ ih =>
      intro named hnamed
      obtain ⟨messageNamespace, messageName, subMembers, rest, rfl, hsub, hrest⟩ :=
        eraseAll_cons_inv hnamed
      obtain ⟨cuts, hcut, hzero⟩ := ih hrest
      have hne : ¬(ArraySpec.single = .single ∧ typeId = .message) := by
        rintro ⟨-, rfl⟩
        exact absurd size (by simp [scalarSize])
      refine ⟨[(.value, raw)] ++ cuts, ?_, ?_⟩
      · rw [pieces, memberPieces, if_neg hne, memberLayout_scalar size]
        exact (CutInto.scalar rfl).append hcut
      · rw [zeroed_append, zeroed_value _ _ rfl, hzero]
  | @doubles _ _ _ _ raws _ _ pos each _ ih =>
      intro named hnamed
      obtain ⟨messageNamespace, messageName, subMembers, rest, rfl, hsub, hrest⟩ :=
        eraseAll_cons_inv hnamed
      obtain ⟨cuts, hcut, hzero⟩ := ih hrest
      refine ⟨(raws.map fun raw => (.value, raw)) ++ cuts, ?_, ?_⟩
      · rw [pieces, memberPieces, if_neg (by simp), memberLayout_doubles _ _ pos,
          List.map_replicate]
        exact (CutInto.doubles each).append hcut
      · rw [zeroed_append, hzero]
        congr 1
        unfold zeroed
        rw [List.flatMap_map]
        exact List.flatMap_id'.symm
  | @text name _ _ _ text _ _ pos short _ ih =>
      intro named hnamed
      obtain ⟨messageNamespace, messageName, subMembers, rest, rfl, hsub, hrest⟩ :=
        eraseAll_cons_inv hnamed
      obtain ⟨cuts, hcut, hzero⟩ := ih hrest
      refine ⟨[(.value, leBytes 4 text.length ++ text)] ++ cuts, ?_, ?_⟩
      · rw [pieces, memberPieces, if_neg (by simp), memberLayout_string]
        exact (CutInto.text short).append hcut
      · rw [zeroed_append, zeroed_value _ _ rfl, hzero]
  | @message name _ _ _ _ _ _ _ _ plain _ _ ihInner ih =>
      intro named hnamed
      obtain ⟨messageNamespace, messageName, subMembers, rest, rfl, hsub, hrest⟩ :=
        eraseAll_cons_inv hnamed
      obtain ⟨inner, hinner, hzeroInner⟩ := ihInner hsub
      obtain ⟨cuts, hcut, hzero⟩ := ih hrest
      have hlooks : isStdHeader name (eraseAll subMembers) = false := by rw [hsub]; exact plain
      refine ⟨inner ++ cuts, ?_, by rw [zeroed_append, hzeroInner, hzero]⟩
      rw [pieces, memberPieces, if_pos ⟨rfl, rfl⟩, hlooks, if_neg (by simp), List.nil_append]
      exact hinner.append hcut
  | @header name _ _ _ _ seq _ _ _ _ header four _ _ ihInner ih =>
      intro named hnamed
      obtain ⟨messageNamespace, messageName, subMembers, rest, rfl, hsub, hrest⟩ :=
        eraseAll_cons_inv hnamed
      obtain ⟨inner, hinner, hzeroInner⟩ := ihInner hsub
      obtain ⟨cuts, hcut, hzero⟩ := ih hrest
      have hlooks : isStdHeader name (eraseAll subMembers) = true := by rw [hsub]; exact header
      refine ⟨[(.seq (isHeader ⟨name, .message, .single, messageNamespace, messageName,
        subMembers⟩), seq)] ++ inner ++ cuts, ?_, ?_⟩
      · rw [pieces, memberPieces, if_pos ⟨rfl, rfl⟩, hlooks, if_pos rfl]
        exact ((CutInto.scalar four).append hinner).append hcut
      · rw [zeroed_append, zeroed_append, ← hzeroInner, ← hzero]
        rw [zeroed_seq four _ rfl]

/-! ## Types without stray bytes -/

theorem Reached.mono {members members' : List NamedMember} {m : NamedMember}
    (h : Reached members m) (hsub : members ⊆ members') : Reached members' m := by
  cases h with
  | here mem message => exact Reached.here (hsub mem) message
  | inside mem message entered below => exact Reached.inside (hsub mem) message entered below

mutual

theorem memberPieces_stray : ∀ (m : NamedMember) {item : Item},
    (item, .seq false) ∈ memberPieces m → ∃ m', Reached [m] m' ∧ ¬SeqAgrees m'
  | ⟨name, typeId, array, messageNamespace, messageName, subMembers⟩, item, hmem => by
      rw [memberPieces] at hmem
      by_cases hmessage : array = .single ∧ typeId = .message
      · obtain ⟨rfl, rfl⟩ := hmessage
        rw [if_pos ⟨rfl, rfl⟩] at hmem
        rcases List.mem_append.mp hmem with hseq | hinner
        · refine ⟨_, Reached.here (List.mem_singleton.mpr rfl) rfl, fun hagrees => ?_⟩
          split at hseq
          · -- it looks like a header, and is none
            obtain ⟨-, hmark⟩ := Prod.mk.inj (List.mem_singleton.mp hseq)
            rename_i hlooks
            have hheader := (show _ = _ from hagrees).symm.trans hlooks
            exact absurd (Mark.seq.inj hmark) (by rw [hheader]; simp)
          · exact absurd hseq (by simp)
        · obtain ⟨m', hreach, hno⟩ := pieces_stray subMembers hinner
          exact ⟨m', Reached.inside (List.mem_singleton.mpr rfl) rfl (Or.inl rfl) hreach, hno⟩
      · rw [if_neg hmessage] at hmem
        obtain ⟨_, -, heq⟩ := List.mem_map.mp hmem
        exact absurd (Prod.mk.inj heq).2 (by simp)

theorem pieces_stray : ∀ (members : List NamedMember) {item : Item},
    (item, .seq false) ∈ pieces members → ∃ m', Reached members m' ∧ ¬SeqAgrees m'
  | [], _, hmem => absurd hmem (by simp [pieces])
  | member :: members, item, hmem => by
      rw [pieces] at hmem
      rcases List.mem_append.mp hmem with hfirst | hrest
      · obtain ⟨m', hreach, hno⟩ := memberPieces_stray member hfirst
        exact ⟨m', hreach.mono (by simp), hno⟩
      · obtain ⟨m', hreach, hno⟩ := pieces_stray members hrest
        exact ⟨m', hreach.mono (List.subset_cons_self _ _), hno⟩

end

theorem mem_cut {items : List (Item × Mark)} {bytes : List UInt8} {c : Mark × List UInt8}
    (h : c ∈ cut items bytes) : ∃ item, (item, c.1) ∈ items := by
  induction items generalizing bytes with
  | nil => exact absurd h (by simp [cut])
  | cons first items ih =>
      obtain ⟨item, mark⟩ := first
      rw [cut] at h
      rcases List.mem_cons.mp h with rfl | hrest
      · exact ⟨item, by simp⟩
      · obtain ⟨item', hmem⟩ := ih hrest
        exact ⟨item', List.mem_cons_of_mem _ hmem⟩

/-- In a type whose headers the code decides right, every payload is reproduced. -/
theorem strayZero_of_agrees {members : List NamedMember}
    (h : ∀ m, Reached members m → SeqAgrees m) (payload : List UInt8) :
    StrayZero members payload := by
  intro c hc hmark
  obtain ⟨item, hmem⟩ := mem_cut hc
  rw [hmark] at hmem
  obtain ⟨m, hreach, hno⟩ := pieces_stray members hmem
  exact absurd (h m hreach) hno

/-- **Where re-encoding reproduces a payload**: what is dropped for no header was zero. -/
theorem reencodes_iff {members : List NamedMember} {payload : List UInt8}
    {msgObj obj : MsgObject} {s : RosStream}
    (h : deserializeRos1ToStruct (ofBuffer payload) msgObj (eraseAll members)
      = .ok (true, obj, s)) :
    Reproduces members payload msgObj obj s ↔ StrayZero members payload := by
  obtain ⟨consumed, written, rest, rfl, hrest, hecho, hserial, htail⟩ := decoded_reencodes h
  obtain ⟨cuts, hcut, hwritten⟩ := hecho.cut rfl
  have hstray : StrayZero members (consumed ++ rest)
      ↔ written = seqsZeroed members consumed := by
    have hconsumed := hcut.eq []
    rw [List.append_nil] at hconsumed
    rw [StrayZero, hcut.eq rest, hwritten, seqsZeroed, hconsumed, zeroed_eq_iff]
    exact forall₂_congr fun c _ => imp_congr_left (stray_iff c.1).symm
  rw [hstray]
  constructor
  · rintro ⟨consumed', rest', hsplit, hrest', hserial', -⟩
    obtain rfl : rest = rest' := hrest.remaining.symm.trans hrest'.remaining
    obtain rfl := List.append_cancel_right hsplit
    obtain ⟨buffer, hok, hbytes⟩ := hserial (.new 0)
    obtain ⟨buffer', hok', hbytes'⟩ := hserial' (.new 0)
    rw [hok] at hok'
    obtain rfl := (Prod.mk.inj (Except.ok.inj hok')).2
    exact List.append_cancel_left (hbytes.symm.trans hbytes')
  · rintro rfl
    exact ⟨consumed, rest, rfl, hrest, hserial, htail⟩

/-- A `std_msgs` header, and a wrapped `Meta` behind it. -/
def labelled : List NamedMember :=
  [⟨"header", .message, .single, "std_msgs::msg", "Header",
    [⟨"stamp", .message, .single, "builtin_interfaces::msg", "Time",
      [⟨"sec", .int32, .single, "", "", []⟩, ⟨"nanosec", .uint32, .single, "", "", []⟩]⟩,
      ⟨"frame_id", .string, .single, "", "", []⟩]⟩,
    ⟨"label", .message, .single, "my_msgs::msg", "Label", metaType⟩]

/--
Sequence number 7, one second and two nanoseconds, frame `a`, four zeros and the stamp of the
`Meta`, and a stray byte: only the 7 is lost.
-/
theorem reencodes_labelled :
    ∃ obj s, Reproduces labelled
        [7, 0, 0, 0, 1, 0, 0, 0, 2, 0, 0, 0, 1, 0, 0, 0, 0x61, 0, 0, 0, 0, 5, 6, 7, 8, 0xAA] [] obj s
      ∧ s.Reading [0xAA]
      ∧ seqsZeroed labelled
          [7, 0, 0, 0, 1, 0, 0, 0, 2, 0, 0, 0, 1, 0, 0, 0, 0x61, 0, 0, 0, 0, 5, 6, 7, 8]
        = [0, 0, 0, 0, 1, 0, 0, 0, 2, 0, 0, 0, 1, 0, 0, 0, 0x61, 0, 0, 0, 0, 5, 6, 7, 8] := by
  have hrun : deserializeRos1ToStruct (ofBuffer [7, 0, 0, 0, 1, 0, 0, 0, 2, 0, 0, 0, 1, 0, 0, 0,
        0x61, 0, 0, 0, 0, 5, 6, 7, 8, 0xAA]) [] (eraseAll labelled)
      = .ok (true, [[.msg [[.msg [[.raw [1, 0, 0, 0]], [.raw [2, 0, 0, 0]]]], [.str [0x61]]]],
          [.msg [[.msg [[.raw [5, 6, 7, 8]]]]]]],
        ⟨some [7, 0, 0, 0, 1, 0, 0, 0, 2, 0, 0, 0, 1, 0, 0, 0, 0x61, 0, 0, 0, 0, 5, 6, 7, 8, 0xAA],
          25, 26⟩) := by
    rfl
  exact ⟨_, _, (reencodes_iff hrun).mpr (by decide +kernel), ⟨_, rfl, by decide, rfl⟩,
    by decide +kernel⟩

/-- The first four bytes of the `Meta` are dropped, and come back as zeros. -/
theorem meta_not_reencoded :
    ∃ obj s, deserializeRos1ToStruct (ofBuffer [1, 2, 3, 4, 5, 6, 7, 8]) [] (eraseAll metaType)
        = .ok (true, obj, s)
      ∧ serializedStructToRos1 obj (.new 0) (eraseAll metaType)
        = .ok (true, ⟨8, [0, 0, 0, 0, 5, 6, 7, 8], by decide⟩)
      ∧ ¬Reproduces metaType [1, 2, 3, 4, 5, 6, 7, 8] [] obj s := by
  have hserial : serializedStructToRos1 [[.msg [[.raw [5, 6, 7, 8]]]]] (.new 0) (eraseAll metaType)
      = .ok (true, ⟨8, [0, 0, 0, 0, 5, 6, 7, 8], by decide⟩) := by
    rfl
  refine ⟨[[.msg [[.raw [5, 6, 7, 8]]]]], ⟨some [1, 2, 3, 4, 5, 6, 7, 8], 8, 8⟩, rfl, hserial, ?_⟩
  rintro ⟨consumed, rest, hsplit, hrest, hsame, -⟩
  obtain rfl : [] = rest := hrest.remaining
  rw [List.append_nil] at hsplit
  obtain ⟨buffer', hok, hbytes⟩ := hsame (.new 0)
  rw [hserial] at hok
  obtain rfl := (Prod.mk.inj (Except.ok.inj hok)).2
  rw [← hsplit] at hbytes
  exact absurd hbytes (by decide)

end RosserialServer
