import RosserialServer.Proof.Exactness
import RosserialServer.Proof.Layout

/-!
# Encoding what was decoded

Bytes the decoder accepts fall into the pieces of the members, in their order, and each
piece determines what is stored. `Echo` lists the pieces beside what the encoder makes of
them: the same bytes again, but for the `seq` of what the code takes for a header, which
comes back as zero. Nothing in it mentions what lies behind the pieces, so nothing behind
them matters. Whether the code takes the right members for headers is another question
(`Proof/HeaderReencoding.lean`).
-/

namespace RosserialServer

open Bytes Outcome RosStream StreamDeserialization

/--
`consumed` spells `obj`, and `written` is `consumed` with a `seq` of zero in front of each
member that looks like a header.
-/
inductive Echo : List MessageMember → MsgObject → List UInt8 → List UInt8 → Prop
  | nil : Echo [] [] [] []
  | scalar {name : String} {typeId : TypeId} {subMembers members : List MessageMember}
      {obj : MsgObject} {raw xs ys : List UInt8} (size : scalarSize typeId = some raw.length)
      (rest : Echo members obj xs ys) :
      Echo (⟨name, typeId, .single, subMembers⟩ :: members) ([.raw raw] :: obj)
        (raw ++ xs) (raw ++ ys)
  | doubles {name : String} {subMembers members : List MessageMember} {obj : MsgObject}
      {raws : List (List UInt8)} {xs ys : List UInt8} (pos : 0 < raws.length)
      (each : ∀ raw ∈ raws, raw.length = 8) (rest : Echo members obj xs ys) :
      Echo (⟨name, .double, .fixed raws.length, subMembers⟩ :: members) (raws.map .raw :: obj)
        (raws.flatten ++ xs) (raws.flatten ++ ys)
  | text {name : String} {subMembers members : List MessageMember} {obj : MsgObject}
      {text xs ys : List UInt8} (pos : 0 < text.length) (short : text.length ≤ 400)
      (rest : Echo members obj xs ys) :
      Echo (⟨name, .string, .single, subMembers⟩ :: members) ([.str text] :: obj)
        (leBytes 4 text.length ++ text ++ xs) (leBytes 4 text.length ++ text ++ ys)
  | message {name : String} {subMembers members : List MessageMember} {fields obj : MsgObject}
      {xs ys xs' ys' : List UInt8} (plain : isStdHeader name subMembers = false)
      (inner : Echo subMembers fields xs ys) (rest : Echo members obj xs' ys') :
      Echo (⟨name, .message, .single, subMembers⟩ :: members) ([.msg fields] :: obj)
        (xs ++ xs') (ys ++ ys')
  | header {name : String} {subMembers members : List MessageMember} {fields obj : MsgObject}
      {seq xs ys xs' ys' : List UInt8} (header : isStdHeader name subMembers = true)
      (four : seq.length = 4) (inner : Echo subMembers fields xs ys)
      (rest : Echo members obj xs' ys') :
      Echo (⟨name, .message, .single, subMembers⟩ :: members) ([.msg fields] :: obj)
        (seq ++ xs ++ xs') (leBytes 4 0 ++ ys ++ ys')

/-! ## What the encoder makes of it -/

theorem Echo.hasType {members : List MessageMember} {obj : MsgObject} {xs ys : List UInt8}
    (h : Echo members obj xs ys) : HasType members obj := by
  induction h with
  | nil => exact HasType.nil
  | @scalar _ _ _ _ _ raw _ _ size _ ih =>
      exact HasType.scalars [raw] (typeSize_of_scalarSize size) (by simp) rfl ih
  | @doubles _ _ _ _ raws _ _ _ each _ ih => exact HasType.scalars raws rfl each rfl ih
  | @text _ _ _ _ text _ _ _ _ _ ih => exact HasType.texts [text] (Or.inl rfl) rfl ih
  | @message _ _ _ fields _ _ _ _ _ _ _ _ ihInner ih =>
      exact HasType.messages [fields] (by simpa using ihInner) rfl ih
  | @header _ _ _ fields _ _ _ _ _ _ _ _ _ _ ihInner ih =>
      exact HasType.messages [fields] (by simpa using ihInner) rfl ih

/-- The encoder goes through every type the decoder has gone through. -/
theorem Echo.noStop {members : List MessageMember} {obj : MsgObject} {xs ys : List UInt8}
    (h : Echo members obj xs ys) : firstStop (plan members) = none := by
  induction h with
  | nil => rfl
  | scalar size _ ih =>
      refine noStop_cons ?_ ih
      rw [memberPlan_scalar size]
      rfl
  | doubles pos _ _ ih => exact noStop_cons (doubles_noStop _ _ pos) ih
  | text _ _ _ ih => exact noStop_cons rfl ih
  | message _ _ _ ihInner ih => exact noStop_cons (message_noStop _ ihInner) ih
  | header _ _ _ _ ihInner ih => exact noStop_cons (message_noStop _ ihInner) ih

theorem Echo.emits {members : List MessageMember} {obj : MsgObject} {xs ys : List UInt8}
    (h : Echo members obj xs ys) : emits obj members = ys := by
  induction h with
  | nil => rfl
  | @scalar _ _ _ _ _ raw _ _ size _ ih =>
      have hbytes : Slot.bytes [.raw raw] = raw := List.append_nil raw
      rw [emits_cons, memberEmits_scalar size, ih, hbytes]
  | doubles _ _ _ ih => rw [emits_cons, memberEmits_scalar rfl, ih, slot_bytes_raws]
  | @text name subMembers _ _ text _ _ _ _ _ ih =>
      have hbytes := memberEmits_texts name .single subMembers [text]
      rw [List.flatMap_singleton] at hbytes
      rw [emits_cons, ih, ← hbytes]
      rfl
  | @message name subMembers _ fields _ _ _ _ _ plain _ _ ihInner ih =>
      have hbytes := memberEmits_messages name .single subMembers [fields] rfl
      rw [List.flatMap_singleton, ihInner, plain] at hbytes
      rw [emits_cons, ih]
      exact congrArg (· ++ _) hbytes
  | @header name subMembers _ fields _ _ _ _ _ _ header _ _ _ ihInner ih =>
      have hbytes := memberEmits_messages name .single subMembers [fields] rfl
      rw [List.flatMap_singleton, ihInner, header] at hbytes
      rw [emits_cons, ih]
      exact congrArg (· ++ _) hbytes

/-! ## What the decoder has read -/

theorem readScalar_split {s s' : RosStream} {bytes raw : List UInt8} {n : Nat}
    (h : s.Reading bytes) (hread : s.readScalar n = .ok (raw, s')) :
    ∃ rest, bytes = raw ++ rest ∧ raw.length = n ∧ s'.Reading rest := by
  by_cases hn : n ≤ bytes.length
  · obtain ⟨rfl, hrest⟩ := readScalar_inv h hread
    refine ⟨bytes.drop n, (List.take_append_drop n bytes).symm, ?_, hrest⟩
    rw [List.length_take]
    omega
  · rw [readScalar_short h (by omega)] at hread
    exact absurd hread (by simp)

theorem readUInt32_split {s s' : RosStream} {bytes : List UInt8} {len : UInt32}
    (h : s.Reading bytes) (hread : s.readUInt32 = .ok (len, s')) :
    ∃ rest, bytes = leBytes 4 len.toNat ++ rest ∧ s'.Reading rest := by
  obtain ⟨⟨raw, s₁⟩, hscalar, hval⟩ := bind_eq_ok.mp hread
  obtain ⟨rest, rfl, hlen, hrest⟩ := readScalar_split h hscalar
  obtain ⟨-, rfl⟩ := Prod.mk.inj (Except.ok.inj hval)
  have hnat := (readUInt32_inv h hread).1
  rw [List.take_left' hlen] at hnat
  refine ⟨rest, ?_, hrest⟩
  rw [hnat, ← hlen, leBytes_leNat]

theorem readString_split {s s' : RosStream} {bytes text : List UInt8} {len : Nat}
    (h : s.Reading bytes) (hlen : ¬400 < len) (hread : s.readString len = .ok (text, s')) :
    ∃ rest, bytes = text ++ rest ∧ text.length = len ∧ 0 < len ∧ s'.Reading rest := by
  by_cases hbad : len = 0 ∨ castInt bytes.length < len
  · obtain ⟨e, he⟩ := readString_bad h hbad
    rw [he] at hread
    exact absurd hread (by simp)
  · obtain ⟨rfl, hrest⟩ := readString_inv h hlen hread
    have hle : len ≤ bytes.length := le_of_le_castInt (n := bytes.length) (by omega) (by omega)
    refine ⟨bytes.drop len, (List.take_append_drop len bytes).symm, ?_, by omega, hrest⟩
    rw [List.length_take]
    omega

theorem readDoubles_split {k : Nat} {s s' : RosStream} {bytes : List UInt8} {slot : Slot}
    (h : s.Reading bytes) (hread : readDoubles k s = .ok (slot, s')) :
    ∃ (raws : List (List UInt8)) (rest : List UInt8), bytes = raws.flatten ++ rest
      ∧ slot = raws.map .raw ∧ raws.length = k ∧ (∀ raw ∈ raws, raw.length = 8)
      ∧ s'.Reading rest := by
  induction k generalizing s bytes slot with
  | zero =>
      obtain ⟨rfl, rfl⟩ := Prod.mk.inj (Except.ok.inj hread)
      exact ⟨[], bytes, rfl, rfl, rfl, by simp, h⟩
  | succ k ih =>
      obtain ⟨⟨raw, s₁⟩, hfirst, hread⟩ := bind_eq_ok.mp hread
      obtain ⟨⟨slot₁, s₂⟩, hrest, hread⟩ := bind_eq_ok.mp hread
      obtain ⟨rfl, rfl⟩ := Prod.mk.inj (Except.ok.inj hread)
      obtain ⟨rest₁, rfl, hlen, h₁⟩ := readScalar_split h hfirst
      obtain ⟨raws, rest, rfl, rfl, rfl, heach, h₂⟩ := ih h₁ hrest
      refine ⟨raw :: raws, rest, ?_, rfl, rfl, ?_, h₂⟩
      · rw [List.flatten_cons, List.append_assoc]
      · intro x hx
        rcases List.mem_cons.mp hx with rfl | hx
        · exact hlen
        · exact heach x hx

/-- The `seq` that was skipped is four bytes, or none. -/
theorem skipSeq_split {name : String} {subMembers : List MessageMember} {s s' : RosStream}
    {bytes : List UInt8} (h : s.Reading bytes) (hskip : skipSeq s name subMembers = .ok s') :
    (isStdHeader name subMembers = false ∧ s'.Reading bytes)
      ∨ (isStdHeader name subMembers = true
        ∧ ∃ seq rest, bytes = seq ++ rest ∧ seq.length = 4 ∧ s'.Reading rest) := by
  unfold skipSeq at hskip
  cases hheader : isStdHeader name subMembers with
  | false =>
      rw [hheader, if_neg (by simp)] at hskip
      obtain rfl := Except.ok.inj hskip
      exact Or.inl ⟨rfl, h⟩
  | true =>
      rw [hheader, if_pos rfl] at hskip
      obtain ⟨⟨seq, s₁⟩, hseq, hskip⟩ := bind_eq_ok.mp hskip
      obtain rfl := Except.ok.inj hskip
      obtain ⟨rest, rfl, hrest⟩ := readUInt32_split h hseq
      exact Or.inr ⟨rfl, leBytes 4 seq.toNat, rest, rfl, length_leBytes 4 _, hrest⟩

/-- A member is accepted when its piece is, and an object when all of them are. -/
theorem deserialize_cons_inv {s s' : RosStream} {msgObj obj : MsgObject} {member : MessageMember}
    {members : List MessageMember}
    (hrun : deserializeRos1ToStruct s msgObj (member :: members) = .ok (true, obj, s')) :
    ∃ slot rest s₁, deserializeMember s (msgObj.headD []) member = .ok (true, slot, s₁)
      ∧ deserializeRos1ToStruct s₁ msgObj.tail members = .ok (true, rest, s')
      ∧ obj = slot :: rest := by
  rw [deserializeRos1ToStruct] at hrun
  obtain ⟨⟨ok, slot, s₁⟩, hfirst, hrun⟩ := bind_eq_ok.mp hrun
  cases ok with
  | false =>
      have hno : (Except.ok (false, slot :: msgObj.tail, s₁) : Except StdException _)
        = .ok (true, obj, s') := hrun
      exact absurd (Prod.mk.inj (Except.ok.inj hno)).1 (by simp)
  | true =>
      obtain ⟨⟨ok, rest, s₂⟩, hthen, hrun⟩ := bind_eq_ok.mp hrun
      have hyes : (Except.ok (ok, slot :: rest, s₂) : Except StdException _)
        = .ok (true, obj, s') := hrun
      obtain ⟨rfl, hpair⟩ := Prod.mk.inj (Except.ok.inj hyes)
      obtain ⟨rfl, rfl⟩ := Prod.mk.inj hpair
      exact ⟨slot, rest, s₁, hfirst, hthen, rfl⟩

/-- A read that takes the piece of a member off the bytes, and what becomes of the piece. -/
def TakesPiece (member : MessageMember) (slot : Slot) (bytes : List UInt8) (s' : RosStream) :
    Prop :=
  ∃ piece piece' rest, bytes = piece ++ rest ∧ s'.Reading rest
    ∧ ∀ {members : List MessageMember} {obj : MsgObject} {xs ys : List UInt8},
      Echo members obj xs ys → Echo (member :: members) (slot :: obj) (piece ++ xs) (piece' ++ ys)

theorem scalar_piece {name : String} {typeId : TypeId} {subMembers : List MessageMember} {n : Nat}
    (hsize : scalarSize typeId = some n) {s s' : RosStream} {bytes : List UInt8}
    (h : s.Reading bytes) {slot₀ slot : Slot}
    (hread : deserializeMember s slot₀ ⟨name, typeId, .single, subMembers⟩ = .ok (true, slot, s')) :
    TakesPiece ⟨name, typeId, .single, subMembers⟩ slot bytes s' := by
  rw [deserializeMember_scalar hsize] at hread
  obtain ⟨⟨raw, s₁⟩, hscalar, hread⟩ := bind_eq_ok.mp hread
  obtain ⟨rfl, rfl⟩ := Prod.mk.inj (Prod.mk.inj (Except.ok.inj hread)).2
  obtain ⟨rest, rfl, rfl, hrest⟩ := readScalar_split h hscalar
  exact ⟨raw, raw, rest, rfl, hrest, fun hecho => Echo.scalar hsize hecho⟩

theorem text_piece {name : String} {subMembers : List MessageMember} {s s' : RosStream}
    {bytes : List UInt8} (h : s.Reading bytes) {slot₀ slot : Slot}
    (hread : deserializeMember s slot₀ ⟨name, .string, .single, subMembers⟩
      = .ok (true, slot, s')) :
    TakesPiece ⟨name, .string, .single, subMembers⟩ slot bytes s' := by
  rw [deserializeMember_string] at hread
  obtain ⟨⟨len, s₁⟩, hlen, hread⟩ := bind_eq_ok.mp hread
  dsimp only at hread
  by_cases hlong : 400 < len.toNat
  · rw [if_pos hlong] at hread
    exact absurd hread (by simp [pure, Except.pure])
  · rw [if_neg hlong] at hread
    obtain ⟨⟨text, s₂⟩, htext, hread⟩ := bind_eq_ok.mp hread
    obtain ⟨rfl, rfl⟩ := Prod.mk.inj (Prod.mk.inj (Except.ok.inj hread)).2
    obtain ⟨rest₁, rfl, h₁⟩ := readUInt32_split h hlen
    obtain ⟨rest, rfl, hval, hpos, hrest⟩ := readString_split h₁ hlong htext
    have hshort : text.length ≤ 400 := by
      rw [hval]
      exact Nat.le_of_not_lt hlong
    rw [← hval] at hpos ⊢
    exact ⟨leBytes 4 text.length ++ text, leBytes 4 text.length ++ text, rest,
      (List.append_assoc ..).symm, hrest, fun hecho => Echo.text hpos hshort hecho⟩

theorem doubles_piece {name : String} {subMembers : List MessageMember} {size : Nat}
    (hpos : 0 < size) {s s' : RosStream} {bytes : List UInt8} (h : s.Reading bytes)
    {slot₀ slot : Slot}
    (hread : deserializeMember s slot₀ ⟨name, .double, .fixed size, subMembers⟩
      = .ok (true, slot, s')) :
    TakesPiece ⟨name, .double, .fixed size, subMembers⟩ slot bytes s' := by
  rw [deserializeMember_doubles _ _ hpos] at hread
  obtain ⟨⟨slot₁, s₁⟩, hdoubles, hread⟩ := bind_eq_ok.mp hread
  obtain ⟨rfl, rfl⟩ := Prod.mk.inj (Prod.mk.inj (Except.ok.inj hread)).2
  obtain ⟨raws, rest, rfl, rfl, rfl, heach, hrest⟩ := readDoubles_split h hdoubles
  exact ⟨raws.flatten, raws.flatten, rest, rfl, hrest, fun hecho => Echo.doubles hpos heach hecho⟩

/-- A member that holds a message, of which the pieces are known. -/
theorem message_piece {name : String} {subMembers : List MessageMember} {s s' : RosStream}
    {bytes : List UInt8} (h : s.Reading bytes) {slot₀ slot : Slot}
    (hinner : ∀ {s s' : RosStream} {bytes : List UInt8} {fields : MsgObject}, s.Reading bytes →
      deserializeRos1ToStruct s slot₀.fields subMembers = .ok (true, fields, s') →
      ∃ xs ys rest, bytes = xs ++ rest ∧ s'.Reading rest ∧ Echo subMembers fields xs ys)
    (hread : deserializeMember s slot₀ ⟨name, .message, .single, subMembers⟩
      = .ok (true, slot, s')) :
    TakesPiece ⟨name, .message, .single, subMembers⟩ slot bytes s' := by
  rw [deserializeMember_message] at hread
  obtain ⟨s₁, hskip, hread⟩ := bind_eq_ok.mp hread
  obtain ⟨⟨ok, fields, s₂⟩, hfields, hread⟩ := bind_eq_ok.mp hread
  have hyes : (Except.ok (ok, [Elem.msg fields], s₂) : Except StdException _)
    = .ok (true, slot, s') := hread
  obtain ⟨rfl, hpair⟩ := Prod.mk.inj (Except.ok.inj hyes)
  obtain ⟨rfl, rfl⟩ := Prod.mk.inj hpair
  rcases skipSeq_split h hskip with ⟨hplain, h₁⟩ | ⟨hheader, seq, rest₁, rfl, hfour, h₁⟩
  · obtain ⟨xs, ys, rest, rfl, hrest, hecho₁⟩ := hinner h₁ hfields
    exact ⟨xs, ys, rest, rfl, hrest, fun hecho => Echo.message hplain hecho₁ hecho⟩
  · obtain ⟨xs, ys, rest, rfl, hrest, hecho₁⟩ := hinner h₁ hfields
    exact ⟨seq ++ xs, leBytes 4 0 ++ ys, rest, (List.append_assoc ..).symm, hrest,
      fun hecho => Echo.header hheader hfour hecho₁ hecho⟩

mutual

theorem member_piece {s s' : RosStream} {bytes : List UInt8} (h : s.Reading bytes)
    {slot₀ slot : Slot} : ∀ member : MessageMember,
      deserializeMember s slot₀ member = .ok (true, slot, s') → TakesPiece member slot bytes s'
  | ⟨name, typeId, array, subMembers⟩, hread => by
      by_cases ha : array = .single
      · subst ha
        cases hsize : scalarSize typeId with
        | some n => exact scalar_piece hsize h hread
        | none =>
            by_cases hs : typeId = .string
            · subst hs
              exact text_piece h hread
            · by_cases hm : typeId = .message
              · subst hm
                exact message_piece h (fun hb hrun => object_echo hb subMembers hrun) hread
              · rw [deserializeMember_unsupported hsize hs hm] at hread
                exact absurd hread (by simp)
      · by_cases hd : IsDoubles typeId array
        · obtain ⟨size, rfl, hpos, rfl⟩ := hd
          exact doubles_piece hpos h hread
        · rw [deserializeMember_array ha hd] at hread
          exact absurd hread (by simp)

/-- **What the decoder has accepted is made of pieces**, and its stream stands behind them. -/
theorem object_echo {s s' : RosStream} {bytes : List UInt8} {msgObj obj : MsgObject}
    (h : s.Reading bytes) : ∀ members : List MessageMember,
      deserializeRos1ToStruct s msgObj members = .ok (true, obj, s') →
      ∃ xs ys rest, bytes = xs ++ rest ∧ s'.Reading rest ∧ Echo members obj xs ys
  | [], hrun => by
      obtain ⟨rfl, rfl⟩ := Prod.mk.inj (Prod.mk.inj (Except.ok.inj hrun)).2
      exact ⟨[], [], bytes, rfl, h, Echo.nil⟩
  | member :: members, hrun => by
      obtain ⟨slot, obj', s₁, hfirst, hthen, rfl⟩ := deserialize_cons_inv hrun
      obtain ⟨piece, piece', rest₁, rfl, h₁, hpiece⟩ := member_piece h member hfirst
      obtain ⟨xs, ys, rest, rfl, hrest, hecho⟩ := object_echo h₁ members hthen
      exact ⟨piece ++ xs, piece' ++ ys, rest, (List.append_assoc ..).symm, hrest, hpiece hecho⟩

end

/-! ## What lies behind does not matter -/

theorem readScalar_front {s : RosStream} {raw rest : List UInt8} (h : s.Reading (raw ++ rest)) :
    ∃ s', s.readScalar raw.length = .ok (raw, s') ∧ s'.Reading rest := by
  obtain ⟨s', hread, hrest⟩ := readScalar_ok (n := raw.length) h (by simp)
  rw [List.take_left] at hread
  rw [List.drop_left] at hrest
  exact ⟨s', hread, hrest⟩

theorem readUInt32_front {s : RosStream} {four rest : List UInt8} (hfour : four.length = 4)
    (h : s.Reading (four ++ rest)) :
    ∃ len s', s.readUInt32 = .ok (len, s') ∧ len.toNat = leNat four ∧ s'.Reading rest := by
  obtain ⟨len, s', hread, hval, hrest⟩ := readUInt32_ok h (by simp [hfour])
  rw [List.take_left' hfour] at hval
  rw [List.drop_left' hfour] at hrest
  exact ⟨len, s', hread, hval, hrest⟩

theorem readDoubles_front {raws : List (List UInt8)} (each : ∀ raw ∈ raws, raw.length = 8)
    {s : RosStream} {rest : List UInt8} (h : s.Reading (raws.flatten ++ rest)) :
    ∃ s', readDoubles raws.length s = .ok (raws.map .raw, s') ∧ s'.Reading rest := by
  induction raws generalizing s with
  | nil => exact ⟨s, rfl, h⟩
  | cons raw raws ih =>
      rw [List.flatten_cons, List.append_assoc] at h
      obtain ⟨s₁, hread, h₁⟩ := readScalar_front h
      rw [each raw (by simp)] at hread
      obtain ⟨s₂, hrest, h₂⟩ := ih (fun x hx => each x (by simp [hx])) h₁
      refine ⟨s₂, ?_, h₂⟩
      rw [List.length_cons, readDoubles, hread, ok_bind]
      dsimp only
      rw [hrest]
      rfl

theorem text_front {name : String} {subMembers : List MessageMember} {text rest : List UInt8}
    (pos : 0 < text.length) (short : text.length ≤ 400) {s : RosStream}
    (h : s.Reading (leBytes 4 text.length ++ text ++ rest)) (hlen : (text ++ rest).length < 2 ^ 31)
    (slot₀ : Slot) :
    ∃ s', deserializeMember s slot₀ ⟨name, .string, .single, subMembers⟩
        = .ok (true, [.str text], s') ∧ s'.Reading rest := by
  rw [List.append_assoc] at h
  obtain ⟨len, s₁, hread, hval, h₁⟩ := readUInt32_front (length_leBytes 4 text.length) h
  rw [leNat_leBytes (by omega)] at hval
  have hcast := castInt_small hlen
  rw [List.length_append] at hcast
  obtain ⟨s₂, htext, h₂⟩ := readString_ok h₁ pos (by rw [List.length_append, hcast]; omega)
    (by simp)
  rw [List.take_left] at htext
  rw [List.drop_left] at h₂
  refine ⟨s₂, ?_, h₂⟩
  rw [deserializeMember_string, hread, ok_bind]
  dsimp only
  rw [if_neg (by omega), hval, htext]
  rfl

theorem skipSeq_front {name : String} {subMembers : List MessageMember} {seq rest : List UInt8}
    (header : isStdHeader name subMembers = true) (four : seq.length = 4) {s : RosStream}
    (h : s.Reading (seq ++ rest)) :
    ∃ s', skipSeq s name subMembers = .ok s' ∧ s'.Reading rest := by
  obtain ⟨len, s', hread, -, hrest⟩ := readUInt32_front four h
  refine ⟨s', ?_, hrest⟩
  unfold skipSeq
  rw [if_pos header, hread]
  rfl

theorem deserialize_cons_ok {s s₁ s' : RosStream} {msgObj obj : MsgObject} {slot : Slot}
    {member : MessageMember} {members : List MessageMember}
    (hfirst : deserializeMember s (msgObj.headD []) member = .ok (true, slot, s₁))
    (hthen : deserializeRos1ToStruct s₁ msgObj.tail members = .ok (true, obj, s')) :
    deserializeRos1ToStruct s msgObj (member :: members) = .ok (true, slot :: obj, s') := by
  rw [deserializeRos1ToStruct, hfirst, ok_bind]
  show (deserializeRos1ToStruct s₁ msgObj.tail members >>= _) = _
  rw [hthen]
  rfl

/-- The decoder reads a message member once it has read the fields. -/
theorem message_ok {name : String} {subMembers : List MessageMember} {s s₁ s' : RosStream}
    {slot₀ : Slot} {fields : MsgObject} (hskip : skipSeq s name subMembers = .ok s₁)
    (hinner : deserializeRos1ToStruct s₁ slot₀.fields subMembers = .ok (true, fields, s')) :
    deserializeMember s slot₀ ⟨name, .message, .single, subMembers⟩
      = .ok (true, [.msg fields], s') := by
  rw [deserializeMember_message, hskip, ok_bind, hinner]
  rfl

/-- **The pieces are read back with anything behind them.** -/
theorem Echo.read {members : List MessageMember} {obj : MsgObject} {xs ys : List UInt8}
    (h : Echo members obj xs ys) {s : RosStream} {tail : List UInt8} (hs : s.Reading (xs ++ tail))
    (hlen : (xs ++ tail).length < 2 ^ 31) (msgObj : MsgObject) :
    ∃ s', deserializeRos1ToStruct s msgObj members = .ok (true, obj, s') ∧ s'.Reading tail := by
  induction h generalizing s tail msgObj with
  | nil => exact ⟨s, rfl, hs⟩
  | scalar size _ ih =>
      rw [List.append_assoc] at hs hlen
      rw [List.length_append] at hlen
      obtain ⟨s₁, hread, h₁⟩ := readScalar_front hs
      obtain ⟨s₂, hrest, h₂⟩ := ih h₁ (by omega) msgObj.tail
      refine ⟨s₂, deserialize_cons_ok ?_ hrest, h₂⟩
      rw [deserializeMember_scalar size, hread]
      rfl
  | doubles pos each _ ih =>
      rw [List.append_assoc] at hs hlen
      rw [List.length_append] at hlen
      obtain ⟨s₁, hread, h₁⟩ := readDoubles_front each hs
      obtain ⟨s₂, hrest, h₂⟩ := ih h₁ (by omega) msgObj.tail
      refine ⟨s₂, deserialize_cons_ok ?_ hrest, h₂⟩
      rw [deserializeMember_doubles _ _ pos, hread]
      rfl
  | text pos short _ ih =>
      rw [List.append_assoc] at hs hlen
      rw [List.append_assoc, List.length_append] at hlen
      obtain ⟨s₁, hread, h₁⟩ := text_front pos short hs (by omega) (msgObj.headD [])
      rw [List.length_append] at hlen
      obtain ⟨s₂, hrest, h₂⟩ := ih h₁ (by omega) msgObj.tail
      exact ⟨s₂, deserialize_cons_ok hread hrest, h₂⟩
  | message plain _ _ ihInner ih =>
      rw [List.append_assoc] at hs hlen
      obtain ⟨s₁, hinner, h₁⟩ := ihInner hs hlen (Slot.fields (msgObj.headD []))
      rw [List.length_append] at hlen
      obtain ⟨s₂, hrest, h₂⟩ := ih h₁ (by omega) msgObj.tail
      refine ⟨s₂, deserialize_cons_ok (message_ok ?_ hinner) hrest, h₂⟩
      unfold skipSeq
      rw [plain]
      rfl
  | header header four _ _ ihInner ih =>
      rw [List.append_assoc, List.append_assoc] at hs hlen
      rw [List.length_append] at hlen
      obtain ⟨s₁, hskip, h₁⟩ := skipSeq_front header four hs
      obtain ⟨s₂, hinner, h₂⟩ := ihInner h₁ (by omega) (Slot.fields (msgObj.headD []))
      rw [List.length_append] at hlen
      obtain ⟨s₃, hrest, h₃⟩ := ih h₂ (by omega) msgObj.tail
      exact ⟨s₃, deserialize_cons_ok (message_ok hskip hinner) hrest, h₃⟩

/--
What was decoded is encoded again from the same pieces. The decoder has stayed inside the
payload, and finds the same object whatever lies behind what it has consumed, as long as an
`int` holds the length.
-/
theorem decoded_reencodes {members : List MessageMember} {payload : List UInt8}
    {msgObj obj : MsgObject} {s : RosStream}
    (h : deserializeRos1ToStruct (ofBuffer payload) msgObj members = .ok (true, obj, s)) :
    ∃ consumed written rest, payload = consumed ++ rest ∧ s.Reading rest
      ∧ Echo members obj consumed written
      ∧ (∀ buffer : WriteBuffer, ∃ buffer',
          serializedStructToRos1 obj buffer members = .ok (true, buffer')
            ∧ buffer'.written = buffer.written ++ written)
      ∧ ∀ tail, (consumed ++ tail).length < 2 ^ 31 → ∃ s',
          deserializeRos1ToStruct (ofBuffer (consumed ++ tail)) msgObj members
            = .ok (true, obj, s') ∧ s'.Reading tail := by
  obtain ⟨consumed, written, rest, hsplit, hrest, hecho⟩ :=
    object_echo (reading_ofBuffer payload) members h
  refine ⟨consumed, written, rest, hsplit, hrest, hecho, ?_, ?_⟩
  · intro buffer
    obtain ⟨buffer', hok, hwrote⟩ := serialize_ok hecho.hasType hecho.noStop buffer
    rw [hecho.emits] at hwrote
    exact ⟨buffer', hok, hwrote.written⟩
  · intro tail hlen
    exact hecho.read (reading_ofBuffer _) hlen msgObj

end RosserialServer
