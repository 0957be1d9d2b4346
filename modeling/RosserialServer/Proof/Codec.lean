import Mathlib.Data.List.Forall2
import RosserialServer.Proof.Encoder
import RosserialServer.Proof.Layout

/-!
# The codec round trip

A value of a type both conversions handle is a list of tokens: plain bytes, and strings
behind their lengths. The encoder writes the tokens one after the other
(`serialize_wrote`). Whether the decoder takes them back is again a question about the
flat list — it takes every token but an empty string — and what it takes back is the value
(`decoded_value`).
-/

namespace RosserialServer

open Bytes Outcome RosStream StreamDeserialization

/-- A piece of an encoding. -/
inductive Token where
  | plain (bytes : List UInt8)
  /-- A string, behind its length. -/
  | text (bytes : List UInt8)
  deriving DecidableEq, Repr

namespace Token

def bytes : Token → List UInt8
  | plain bs => bs
  | text bs => leBytes 4 bs.length ++ bs

/-- The token is one the item of a layout stands for. -/
def Fills : Item → Token → Prop
  | .scalar n, plain bs => bs.length = n
  | .text, text bs => bs.length ≤ 400
  | _, _ => False

end Token

/-- The bytes of a list of tokens. -/
def spell (toks : List Token) : List UInt8 := toks.flatMap Token.bytes

theorem spell_cons (tok : Token) (toks : List Token) :
    spell (tok :: toks) = tok.bytes ++ spell toks := rfl

theorem spell_append (xs ys : List Token) : spell (xs ++ ys) = spell xs ++ spell ys :=
  List.flatMap_append

/-- Each string has a byte, and the `int` that remains behind its length covers it. -/
def Readable : List Token → List UInt8 → Prop
  | [], _ => True
  | .plain _ :: toks, r => Readable toks r
  | .text bs :: toks, r =>
      bs ≠ [] ∧ bs.length ≤ castInt (bs ++ (spell toks ++ r)).length ∧ Readable toks r

theorem scan_plain (bs rest : List UInt8) (items : List Item) :
    scan (.scalar bs.length :: items) (bs ++ rest) = scan items rest := by
  rw [scan, if_pos (by simp), List.drop_left]

theorem scan_text {bs : List UInt8} (hlen : bs.length ≤ 400) (rest : List UInt8)
    (items : List Item) :
    scan (.text :: items) (leBytes 4 bs.length ++ bs ++ rest)
      = if bs = [] ∨ castInt (bs ++ rest).length < bs.length then .starved
        else scan items rest := by
  have hfour : (leBytes 4 bs.length).length = 4 := length_leBytes 4 bs.length
  have htake : (leBytes 4 bs.length ++ (bs ++ rest)).take 4 = leBytes 4 bs.length :=
    List.take_left' hfour
  have hdrop : (leBytes 4 bs.length ++ (bs ++ rest)).drop 4 = bs ++ rest :=
    List.drop_left' hfour
  have hval : leNat (leBytes 4 bs.length) = bs.length := leNat_leBytes (by omega)
  rw [List.append_assoc, scan, htake, hdrop, hval, if_neg (by simp [hfour]), if_neg (by omega),
    List.drop_left]
  by_cases hempty : bs = []
  · rw [if_pos (Or.inl (by rw [hempty]; rfl)), if_pos (Or.inl hempty)]
  · have hpos : bs.length ≠ 0 := fun hc => hempty (List.eq_nil_of_length_eq_zero hc)
    by_cases hshort : castInt (bs ++ rest).length < bs.length
    · rw [if_pos (Or.inr hshort), if_pos (Or.inr hshort)]
    · rw [if_neg (by simp only [hpos, hshort, or_self, not_false_eq_true]),
        if_neg (by simp only [hempty, hshort, or_self, not_false_eq_true])]

/-- **Tokens are read back by the layout they fill exactly when they are readable.** -/
theorem scan_fills {items : List Item} {toks : List Token}
    (h : List.Forall₂ Token.Fills items toks) (r : List UInt8) :
    (Readable toks r → scan items (spell toks ++ r) = .accepted r)
      ∧ (¬Readable toks r → scan items (spell toks ++ r) = .starved) := by
  induction h with
  | nil => exact ⟨fun _ => rfl, fun hno => absurd trivial hno⟩
  | @cons item tok items toks hfills _ ih =>
      rw [spell_cons, List.append_assoc]
      cases item with
      | scalar n =>
          cases tok with
          | plain bs =>
              obtain rfl : bs.length = n := hfills
              rw [Token.bytes, scan_plain]
              exact ih
          | text bs => exact hfills.elim
      | text =>
          cases tok with
          | plain bs => exact hfills.elim
          | text bs =>
              rw [Token.bytes, scan_text hfills]
              constructor
              · rintro ⟨hne, hle, hrest⟩
                rw [if_neg (by simp only [hne, false_or]; omega)]
                exact ih.1 hrest
              · intro hno
                split
                · rfl
                · rename_i hgood
                  refine ih.2 fun hrest => hno ⟨?_, ?_, hrest⟩
                  · exact fun hc => hgood (Or.inl hc)
                  · exact Nat.le_of_not_lt fun hc => hgood (Or.inr hc)
      | unsupported => cases tok <;> exact hfills.elim

/-! ## Values -/

/-- The bytes of a scalar. -/
def Elem.bytes : Elem → List UInt8
  | .raw bs => bs
  | _ => []

/-- The `seq` in front of a header, as it is written. -/
def seqTokens (name : String) (subMembers : List MessageMember) : List Token :=
  if isStdHeader name subMembers then [.plain (leBytes 4 0)] else []

mutual

def memberTokens (slot : Slot) : MessageMember → List Token
  | ⟨name, typeId, _, subMembers⟩ =>
      match typeId with
      | .string => slot.map fun e => .text e.text
      | .message => seqTokens name subMembers ++ tokens slot.fields subMembers
      | _ => slot.map fun e => .plain e.bytes

/-- The tokens of a message object. -/
def tokens (msgObj : MsgObject) : List MessageMember → List Token
  | [] => []
  | member :: members => memberTokens (msgObj.headD []) member ++ tokens msgObj.tail members

end

/--
The values of the types made of the members both conversions handle: scalars, strings of at
most 400 bytes, messages, and fixed arrays of doubles.
-/
inductive IsValue : List MessageMember → MsgObject → Prop
  | nil : IsValue [] []
  | scalar {name : String} {typeId : TypeId} {subMembers members : List MessageMember}
      {obj : MsgObject} {raw : List UInt8} (size : scalarSize typeId = some raw.length)
      (bool : typeId = .boolean → raw = [0] ∨ raw = [1]) (rest : IsValue members obj) :
      IsValue (⟨name, typeId, .single, subMembers⟩ :: members) ([.raw raw] :: obj)
  | text {name : String} {subMembers members : List MessageMember} {obj : MsgObject}
      {bs : List UInt8} (short : bs.length ≤ 400) (rest : IsValue members obj) :
      IsValue (⟨name, .string, .single, subMembers⟩ :: members) ([.str bs] :: obj)
  | message {name : String} {subMembers members : List MessageMember} {fields obj : MsgObject}
      (inner : IsValue subMembers fields) (rest : IsValue members obj) :
      IsValue (⟨name, .message, .single, subMembers⟩ :: members) ([.msg fields] :: obj)
  | doubles {name : String} {subMembers members : List MessageMember} {obj : MsgObject}
      {raws : List (List UInt8)} (pos : 0 < raws.length) (size : ∀ raw ∈ raws, raw.length = 8)
      (rest : IsValue members obj) :
      IsValue (⟨name, .double, .fixed raws.length, subMembers⟩ :: members)
        (raws.map .raw :: obj)

theorem memberTokens_raws {name : String} {typeId : TypeId} {array : ArraySpec}
    {subMembers : List MessageMember} {n : Nat} (h : scalarSize typeId = some n)
    (raws : List (List UInt8)) :
    memberTokens (raws.map .raw) ⟨name, typeId, array, subMembers⟩ = raws.map .plain := by
  unfold memberTokens
  cases typeId with
  | string => exact absurd h (by simp [scalarSize])
  | message => exact absurd h (by simp [scalarSize])
  | _ => exact List.map_map

theorem memberTokens_raw {name : String} {typeId : TypeId} {array : ArraySpec}
    {subMembers : List MessageMember} {n : Nat} (h : scalarSize typeId = some n)
    (raw : List UInt8) :
    memberTokens [.raw raw] ⟨name, typeId, array, subMembers⟩ = [.plain raw] :=
  memberTokens_raws h [raw]

theorem memberTokens_text (name : String) (array : ArraySpec) (subMembers : List MessageMember)
    (bs : List UInt8) :
    memberTokens [.str bs] ⟨name, .string, array, subMembers⟩ = [.text bs] := by
  unfold memberTokens
  rfl

theorem memberTokens_message (name : String) (array : ArraySpec)
    (subMembers : List MessageMember) (fields : MsgObject) :
    memberTokens [.msg fields] ⟨name, .message, array, subMembers⟩
      = seqTokens name subMembers ++ tokens fields subMembers := by
  rw [memberTokens]
  rfl

theorem tokens_cons (slot : Slot) (obj : MsgObject) (member : MessageMember)
    (members : List MessageMember) :
    tokens (slot :: obj) (member :: members) = memberTokens slot member ++ tokens obj members := by
  rw [tokens]
  rfl

/-- The bytes of plain tokens are the bytes themselves. -/
theorem spell_plain (raws : List (List UInt8)) : spell (raws.map .plain) = raws.flatten := by
  induction raws with
  | nil => rfl
  | cons raw raws ih => rw [List.map_cons, spell_cons, ih, List.flatten_cons]; rfl

theorem plain_fills {n : Nat} {raws : List (List UInt8)} (h : ∀ raw ∈ raws, raw.length = n) :
    List.Forall₂ Token.Fills (List.replicate raws.length (.scalar n)) (raws.map .plain) := by
  induction raws with
  | nil => exact List.Forall₂.nil
  | cons raw raws ih =>
      exact List.Forall₂.cons (h raw (by simp)) (ih fun x hx => h x (by simp [hx]))

/-- **The tokens of a value fill the layout of its type.** -/
theorem tokens_fill {members : List MessageMember} {obj : MsgObject} (h : IsValue members obj) :
    List.Forall₂ Token.Fills (layout members) (tokens obj members) := by
  induction h with
  | nil => exact List.Forall₂.nil
  | scalar size _ _ ih =>
      rw [layout, memberLayout_scalar size, tokens_cons, memberTokens_raw size]
      exact List.Forall₂.cons rfl ih
  | text short _ ih =>
      rw [layout, memberLayout_string, tokens_cons, memberTokens_text]
      exact List.Forall₂.cons short ih
  | message _ _ ihInner ih =>
      rw [layout, memberLayout_message, tokens_cons, memberTokens_message]
      refine List.rel_append (List.rel_append ?_ ihInner) ih
      unfold seqTokens
      split
      · exact List.Forall₂.cons (length_leBytes 4 0) List.Forall₂.nil
      · exact List.Forall₂.nil
  | doubles pos size _ ih =>
      rw [layout, memberLayout_doubles _ _ pos, tokens_cons, memberTokens_raws rfl]
      exact List.rel_append (plain_fills size) ih

/-! ## The encoder -/

theorem IsValue.hasType {members : List MessageMember} {obj : MsgObject}
    (h : IsValue members obj) : HasType members obj := by
  induction h with
  | nil => exact HasType.nil
  | @scalar _ _ _ _ _ raw size _ _ ih =>
      exact HasType.scalars [raw] (typeSize_of_scalarSize size) (by simp) rfl ih
  | @text _ _ _ _ bs _ _ ih => exact HasType.texts [bs] (Or.inl rfl) rfl ih
  | @message _ _ _ fields _ _ _ ihInner ih =>
      exact HasType.messages [fields] (by simpa using ihInner) rfl ih
  | @doubles _ _ _ _ raws _ size _ ih => exact HasType.scalars raws rfl size rfl ih

theorem IsValue.noStop {members : List MessageMember} {obj : MsgObject}
    (h : IsValue members obj) : firstStop (plan members) = none := by
  induction h with
  | nil => rfl
  | scalar size _ _ ih =>
      refine noStop_cons ?_ ih
      rw [memberPlan_scalar size]
      rfl
  | text _ _ ih => exact noStop_cons rfl ih
  | message _ _ ihInner ih => exact noStop_cons (message_noStop _ ihInner) ih
  | doubles pos _ _ ih => exact noStop_cons (doubles_noStop _ _ pos) ih

/-- The `seq` the encoder writes in front of a header. -/
theorem spell_seqTokens (name : String) (subMembers : List MessageMember) :
    spell (seqTokens name subMembers) = if isStdHeader name subMembers then leBytes 4 0 else [] := by
  unfold seqTokens
  cases isStdHeader name subMembers with
  | false => rfl
  | true => exact spell_plain [leBytes 4 0]

theorem IsValue.emits {members : List MessageMember} {obj : MsgObject}
    (h : IsValue members obj) : emits obj members = spell (tokens obj members) := by
  induction h with
  | nil => rfl
  | @scalar _ _ _ _ _ raw size _ _ ih =>
      rw [emits_cons, memberEmits_scalar size, ih, tokens_cons, memberTokens_raw size,
        spell_append]
      exact congrArg (· ++ _) ((slot_bytes_raws [raw]).trans (spell_plain [raw]).symm)
  | @text name subMembers _ _ bs _ _ ih =>
      rw [emits_cons, ih, tokens_cons, memberTokens_text, spell_append]
      exact congrArg (· ++ _) (memberEmits_texts name .single subMembers [bs])
  | @message name subMembers _ fields _ _ _ ihInner ih =>
      have hbytes := memberEmits_messages name .single subMembers [fields] rfl
      rw [List.flatMap_singleton, ihInner] at hbytes
      rw [emits_cons, ih, tokens_cons, memberTokens_message, spell_append, spell_append,
        spell_seqTokens]
      exact congrArg (· ++ _) hbytes
  | doubles pos size _ ih =>
      rw [emits_cons, memberEmits_scalar rfl, ih, slot_bytes_raws, tokens_cons,
        memberTokens_raws rfl, spell_append, spell_plain]

/-- **The encoder appends the tokens of a value.** -/
theorem serialize_wrote {members : List MessageMember} {obj : MsgObject} (h : IsValue members obj)
    (b : WriteBuffer) :
    ∃ b', serializedStructToRos1 obj b members = .ok (true, b')
      ∧ b.Wrote (spell (tokens obj members)) b' := by
  rw [← h.emits]
  exact serialize_ok h.hasType h.noStop b

/-! ## The decoder -/

/-- Whenever a decoder accepts the bytes it returns the value, and stops behind them. -/
def DecodesTo {α : Type} (value : α) (bytes : List UInt8)
    (decode : RosStream → Except StdException (Bool × α × RosStream)) : Prop :=
  ∀ (s s' : RosStream) (x : α) (r : List UInt8), s.Reading (bytes ++ r) →
    decode s = .ok (true, x, s') → x = value ∧ s'.Reading r

theorem readDoubles_value {raws : List (List UInt8)} (h : ∀ raw ∈ raws, raw.length = 8)
    {s s' : RosStream} {slot : Slot} {r : List UInt8} (hs : s.Reading (raws.flatten ++ r))
    (hread : readDoubles raws.length s = .ok (slot, s')) :
    slot = raws.map .raw ∧ s'.Reading r := by
  induction raws generalizing s slot with
  | nil =>
      obtain ⟨rfl, rfl⟩ := Prod.mk.inj (Except.ok.inj hread)
      exact ⟨rfl, hs⟩
  | cons raw raws ih =>
      have hraw : raw.length = 8 := h raw (by simp)
      rw [List.flatten_cons, List.append_assoc] at hs
      obtain ⟨⟨first, s₁⟩, hfirst, hread⟩ := bind_eq_ok.mp hread
      obtain ⟨⟨rest, s₂⟩, hrest, hread⟩ := bind_eq_ok.mp hread
      obtain ⟨rfl, rfl⟩ := Prod.mk.inj (Except.ok.inj hread)
      obtain ⟨rfl, h₁⟩ := readScalar_inv hs hfirst
      rw [List.drop_left' hraw] at h₁
      obtain ⟨rfl, h₂⟩ := ih (fun x hx => h x (by simp [hx])) h₁ hrest
      rw [List.take_left' hraw]
      exact ⟨rfl, h₂⟩

theorem skipSeq_value {name : String} {subMembers : List MessageMember} {s s' : RosStream}
    {r : List UInt8} (hs : s.Reading (spell (seqTokens name subMembers) ++ r))
    (hskip : skipSeq s name subMembers = .ok s') : s'.Reading r := by
  unfold skipSeq at hskip
  unfold seqTokens at hs
  by_cases hheader : isStdHeader name subMembers = true
  · rw [if_pos hheader] at hs hskip
    obtain ⟨⟨seq, s₁⟩, hseq, hskip⟩ := bind_eq_ok.mp hskip
    obtain rfl := Except.ok.inj hskip
    rw [show spell [.plain (leBytes 4 0)] = leBytes 4 0 from List.append_nil _] at hs
    have h₁ := (readUInt32_inv hs hseq).2
    rwa [List.drop_left' (length_leBytes 4 0)] at h₁
  · rw [if_neg hheader] at hs hskip
    obtain rfl := Except.ok.inj hskip
    exact hs

theorem deserializeMember_text_value (name : String) (subMembers : List MessageMember)
    {bs : List UInt8} (h : bs.length ≤ 400) (slot : Slot) :
    DecodesTo [Elem.str bs] (leBytes 4 bs.length ++ bs)
      fun s => deserializeMember s slot ⟨name, .string, .single, subMembers⟩ := by
  intro s s' x r hs hread
  have hfour : (leBytes 4 bs.length).length = 4 := length_leBytes 4 bs.length
  have hval : leNat (leBytes 4 bs.length) = bs.length := leNat_leBytes (by omega)
  rw [List.append_assoc] at hs
  dsimp only at hread
  rw [deserializeMember_string] at hread
  obtain ⟨s₁, hnext, h₁⟩ := text_inv (fun _ => Iff.rfl) hs hread
  obtain ⟨rfl, rfl⟩ := Prod.mk.inj (Prod.mk.inj (Except.ok.inj hnext)).2
  rw [List.take_left' hfour, List.drop_left' hfour, hval, List.drop_left] at h₁
  rw [List.take_left' hfour, List.drop_left' hfour, hval, List.take_left]
  exact ⟨rfl, h₁⟩

theorem deserialize_cons_value {slot : Slot} {obj msgObj : MsgObject} {member : MessageMember}
    {members : List MessageMember} {xs ys : List UInt8}
    (hslot : ∀ slot₀, DecodesTo slot xs fun s => deserializeMember s slot₀ member)
    (hrest : ∀ obj₀, DecodesTo obj ys fun s => deserializeRos1ToStruct s obj₀ members) :
    DecodesTo (slot :: obj) (xs ++ ys)
      fun s => deserializeRos1ToStruct s msgObj (member :: members) := by
  intro s s' x r hs hrun
  dsimp only at hrun
  rw [deserializeRos1ToStruct] at hrun
  rw [List.append_assoc] at hs
  obtain ⟨⟨ok, slot', s₁⟩, hfirst, hrun⟩ := bind_eq_ok.mp hrun
  -- a refused member refuses the object
  cases ok with
  | false =>
      have hno : (Except.ok (false, slot' :: msgObj.tail, s₁) : Except StdException _)
        = .ok (true, x, s') := hrun
      exact absurd (Prod.mk.inj (Except.ok.inj hno)).1 (by simp)
  | true =>
      obtain ⟨rfl, h₁⟩ := hslot _ _ _ _ _ hs hfirst
      obtain ⟨⟨ok, obj', s₂⟩, hthen, hrun⟩ := bind_eq_ok.mp hrun
      have hyes : (Except.ok (ok, slot' :: obj', s₂) : Except StdException _)
        = .ok (true, x, s') := hrun
      obtain ⟨rfl, hpair⟩ := Prod.mk.inj (Except.ok.inj hyes)
      obtain ⟨rfl, rfl⟩ := Prod.mk.inj hpair
      obtain ⟨rfl, h₂⟩ := hrest _ _ _ _ _ h₁ hthen
      exact ⟨rfl, h₂⟩

/-- **What the decoder takes back from the tokens of a value is the value.** -/
theorem decoded_value {members : List MessageMember} {obj : MsgObject} (h : IsValue members obj)
    (msgObj : MsgObject) :
    DecodesTo obj (spell (tokens obj members)) fun s => deserializeRos1ToStruct s msgObj members := by
  induction h generalizing msgObj with
  | nil =>
      intro s s' x r hs hrun
      obtain ⟨rfl, rfl⟩ := Prod.mk.inj (Prod.mk.inj (Except.ok.inj hrun)).2
      exact ⟨rfl, hs⟩
  | @scalar _ _ _ _ _ raw size _ _ ih =>
      rw [tokens_cons, memberTokens_raw size, spell_append]
      refine deserialize_cons_value ?_ ih
      intro slot₀ s s' x r hs hread
      dsimp only at hread
      rw [deserializeMember_scalar size] at hread
      obtain ⟨⟨raw', s₁⟩, hscalar, hread⟩ := bind_eq_ok.mp hread
      obtain ⟨rfl, rfl⟩ := Prod.mk.inj (Prod.mk.inj (Except.ok.inj hread)).2
      obtain ⟨rfl, h₁⟩ := readScalar_inv hs hscalar
      have hspell : spell [.plain raw] ++ r = raw ++ r := by simp [spell, Token.bytes]
      rw [hspell, List.drop_left] at h₁
      rw [hspell, List.take_left]
      exact ⟨rfl, h₁⟩
  | @text name subMembers _ _ bs short _ ih =>
      have hspell : spell [.text bs] = leBytes 4 bs.length ++ bs := List.append_nil _
      rw [tokens_cons, memberTokens_text, spell_append, hspell]
      exact deserialize_cons_value (deserializeMember_text_value name subMembers short) ih
  | message _ _ ihInner ih =>
      rw [tokens_cons, memberTokens_message, spell_append, spell_append]
      refine deserialize_cons_value ?_ ih
      intro slot₀ s s' x r hs hread
      dsimp only at hread
      rw [deserializeMember_message] at hread
      obtain ⟨s₁, hskip, hread⟩ := bind_eq_ok.mp hread
      obtain ⟨⟨ok, fields', s₂⟩, hinner, hread⟩ := bind_eq_ok.mp hread
      have hyes : (Except.ok (ok, [Elem.msg fields'], s₂) : Except StdException _)
        = .ok (true, x, s') := hread
      obtain ⟨rfl, hpair⟩ := Prod.mk.inj (Except.ok.inj hyes)
      obtain ⟨rfl, rfl⟩ := Prod.mk.inj hpair
      rw [List.append_assoc] at hs
      obtain ⟨rfl, h₂⟩ := ihInner _ _ _ _ _ (skipSeq_value hs hskip) hinner
      exact ⟨rfl, h₂⟩
  | doubles pos size _ ih =>
      rw [tokens_cons, memberTokens_raws rfl, spell_append, spell_plain]
      refine deserialize_cons_value ?_ ih
      intro slot₀ s s' x r hs hread
      dsimp only at hread
      rw [deserializeMember_doubles _ _ pos] at hread
      obtain ⟨⟨slot, s₁⟩, hdoubles, hread⟩ := bind_eq_ok.mp hread
      obtain ⟨rfl, rfl⟩ := Prod.mk.inj (Prod.mk.inj (Except.ok.inj hread)).2
      exact readDoubles_value size hs hdoubles

/-! ## The round trip -/

/-- The value survives being encoded, with `r` behind it, and decoded. -/
def RoundTrips (members : List MessageMember) (obj : MsgObject) (r : List UInt8) : Prop :=
  ∀ (buffer : WriteBuffer) (msgObj : MsgObject), ∃ buffer' bytes s,
    serializedStructToRos1 obj buffer members = .ok (true, buffer')
      ∧ buffer'.written = buffer.written ++ bytes
      ∧ deserializeRos1ToStruct (ofBuffer (bytes ++ r)) msgObj members = .ok (true, obj, s)
      ∧ s.remaining = r

/--
**A value survives the round trip exactly when its strings are readable**: none is empty, and
the `int` the decoder compares a length with covers it.
-/
theorem codec_roundtrip_iff {members : List MessageMember} {obj : MsgObject}
    (h : IsValue members obj) (r : List UInt8) :
    RoundTrips members obj r ↔ Readable (tokens obj members) r := by
  have hscan := scan_fills (tokens_fill h) r
  have hread := reading_ofBuffer (spell (tokens obj members) ++ r)
  constructor
  · intro htrip
    by_cases hreadable : Readable (tokens obj members) r
    · exact hreadable
    · -- an unreadable string starves the decoder, which throws
      obtain ⟨buffer', bytes, s, hwrite, hwritten, hrun, -⟩ := htrip (WriteBuffer.new 0) []
      obtain ⟨buffer'', hwrite', hwrote⟩ := serialize_wrote h (WriteBuffer.new 0)
      rw [hwrite] at hwrite'
      obtain ⟨-, rfl⟩ := Prod.mk.inj (Except.ok.inj hwrite')
      rw [hwrote.written] at hwritten
      obtain rfl := List.append_cancel_left hwritten
      have hagrees := deserialize_agrees hread [] members
      rw [hscan.2 hreadable, hrun] at hagrees
      obtain ⟨e, hc⟩ := hagrees
      exact absurd hc (by simp)
  · intro hreadable buffer msgObj
    obtain ⟨buffer', hwrite, hwrote⟩ := serialize_wrote h buffer
    have hagrees := deserialize_agrees hread msgObj members
    rw [hscan.1 hreadable] at hagrees
    obtain ⟨obj', s, hrun, -⟩ := hagrees
    obtain ⟨rfl, hrest⟩ := decoded_value h msgObj _ _ _ _ hread hrun
    exact ⟨buffer', _, s, hwrite, hwrote.written, hrun, hrest.remaining⟩

/-- Below `INT_MAX` bytes, being readable is to have no empty string. -/
theorem readable_iff {toks : List Token} {r : List UInt8}
    (h : (spell toks ++ r).length < 2 ^ 31) :
    Readable toks r ↔ Token.text [] ∉ toks := by
  induction toks with
  | nil => exact iff_of_true trivial (by simp)
  | cons tok toks ih =>
      rw [spell_cons, List.append_assoc, List.length_append] at h
      have htail := ih (by omega)
      cases tok with
      | plain bs =>
          rw [List.mem_cons]
          exact htail.trans (by simp)
      | text bs =>
          have hlen : (Token.text bs).bytes.length = 4 + bs.length := by
            simp [Token.bytes]
          have hint : castInt (bs ++ (spell toks ++ r)).length
              = (bs ++ (spell toks ++ r)).length := by
            refine castInt_small ?_
            rw [List.length_append]
            omega
          rw [Readable, hint, htail, List.mem_cons]
          constructor
          · rintro ⟨hne, -, hmem⟩ (hc | hc)
            · exact hne (Token.text.inj hc).symm
            · exact hmem hc
          · intro hno
            refine ⟨fun hc => hno (Or.inl (by rw [hc])), ?_, fun hc => hno (Or.inr hc)⟩
            rw [List.length_append]
            omega

/-- `std_msgs/String` with the two letters `hi`. -/
theorem codec_roundtrip_hi :
    RoundTrips [⟨"data", .string, .single, []⟩] [[.str [0x68, 0x69]]] [0xFF] :=
  (codec_roundtrip_iff (.text (by decide) .nil) [0xFF]).mpr
    ((readable_iff (by decide)).mpr (by decide))

/-- The empty `std_msgs/String` is written and cannot be read. -/
theorem codec_roundtrip_empty :
    ¬∀ (members : List MessageMember) (obj : MsgObject), IsValue members obj →
      ∀ r, RoundTrips members obj r := by
  intro h
  have hvalue : IsValue [⟨"data", .string, .single, []⟩] [[.str []]] := .text (by decide) .nil
  obtain ⟨_, bytes, s, hwrite, hwritten, hrun, -⟩ := h _ _ hvalue [] (WriteBuffer.new 0) []
  obtain ⟨_, hwrite', hwrote⟩ := serialize_wrote hvalue (WriteBuffer.new 0)
  rw [hwrite] at hwrite'
  obtain ⟨-, rfl⟩ := Prod.mk.inj (Except.ok.inj hwrite')
  rw [hwrote.written] at hwritten
  obtain rfl := List.append_cancel_left hwritten
  have hthrows : deserializeRos1ToStruct (ofBuffer [0, 0, 0, 0]) []
      [⟨"data", .string, .single, []⟩] = .error undefinedString := rfl
  exact absurd (hthrows.symm.trans hrun) (by simp)

end RosserialServer
