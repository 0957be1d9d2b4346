import RosserialServer.Lib.Outcome
import RosserialServer.Proof.StreamReads
import RosserialServer.RosAdapter.RosMessageAdapter

/-!
# Flat layouts

To a decoder a type is a flat list of items: scalars of a size, strings, and members it
does not support. `scan` reads bytes by such a list and knows three endings: the items
are read, an item is refused, or the bytes run out — which an empty string counts as,
since reading it throws. The recursive decoder and the registration parser both refine
`scan` (`deserialize_agrees`, `getTopicInfo_agrees`), so what they do with a body is a
question about its bytes alone.
-/

namespace RosserialServer

open Bytes Outcome RosStream

/-- One item of a flat layout. -/
inductive Item where
  | scalar (size : Nat)
  | text
  | unsupported
  deriving DecidableEq, Repr

/-- How reading bytes by a layout ends. -/
inductive Verdict where
  | accepted (rest : List UInt8)
  | rejected
  | starved
  deriving DecidableEq, Repr

namespace Verdict

/-- Go on with what is left, if everything so far was read. -/
def andThen (v : Verdict) (k : List UInt8 → Verdict) : Verdict :=
  match v with
  | accepted rest => k rest
  | rejected => rejected
  | starved => starved

end Verdict

/-- Read bytes by a layout. -/
def scan : List Item → List UInt8 → Verdict
  | [], bytes => .accepted bytes
  | .scalar n :: items, bytes =>
      if n ≤ bytes.length then scan items (bytes.drop n) else .starved
  | .text :: items, bytes =>
      if bytes.length < 4 then .starved
      else if 400 < leNat (bytes.take 4) then .rejected
      else if leNat (bytes.take 4) = 0 ∨ castInt (bytes.drop 4).length < leNat (bytes.take 4) then
        .starved
      else scan items ((bytes.drop 4).drop (leNat (bytes.take 4)))
  | .unsupported :: _, _ => .rejected

theorem scan_append (xs ys : List Item) (bytes : List UInt8) :
    scan (xs ++ ys) bytes = (scan xs bytes).andThen (scan ys) := by
  induction xs generalizing bytes with
  | nil => rfl
  | cons x xs ih =>
      rw [List.cons_append]
      cases x with
      | scalar n =>
          unfold scan
          split
          · exact ih _
          · rfl
      | text =>
          unfold scan
          split
          · rfl
          · split
            · rfl
            · split
              · rfl
              · exact ih _
      | unsupported => rfl

mutual

def memberLayout : MessageMember → List Item
  | ⟨name, typeId, array, subMembers⟩ =>
      match array with
      | .single =>
          match scalarSize typeId with
          | some n => [.scalar n]
          | none =>
              match typeId with
              | .string => [.text]
              | .message =>
                  (if isStdHeader name subMembers then [.scalar 4] else []) ++ layout subMembers
              | _ => [.unsupported]
      | .fixed size =>
          if 0 < size ∧ typeId = .double then List.replicate size (.scalar 8) else [.unsupported]
      | _ => [.unsupported]

/-- The layout the decoder reads a message type by. -/
def layout : List MessageMember → List Item
  | [] => []
  | member :: members => memberLayout member ++ layout members

end

/-! One equation for each kind of member. -/

theorem memberLayout_scalar {name : String} {typeId : TypeId} {subMembers : List MessageMember}
    {n : Nat} (h : scalarSize typeId = some n) :
    memberLayout ⟨name, typeId, .single, subMembers⟩ = [.scalar n] := by
  unfold memberLayout
  dsimp only
  rw [h]

theorem memberLayout_unsupported {name : String} {typeId : TypeId}
    {subMembers : List MessageMember} (h : scalarSize typeId = none) (hs : typeId ≠ .string)
    (hm : typeId ≠ .message) :
    memberLayout ⟨name, typeId, .single, subMembers⟩ = [.unsupported] := by
  unfold memberLayout
  dsimp only
  rw [h]
  cases typeId with
  | string => exact absurd rfl hs
  | message => exact absurd rfl hm
  | _ => rfl

theorem memberLayout_string (name : String) (subMembers : List MessageMember) :
    memberLayout ⟨name, .string, .single, subMembers⟩ = [.text] := by
  unfold memberLayout
  rfl

theorem memberLayout_message (name : String) (subMembers : List MessageMember) :
    memberLayout ⟨name, .message, .single, subMembers⟩
      = (if isStdHeader name subMembers then [.scalar 4] else []) ++ layout subMembers := by
  unfold memberLayout
  rfl

theorem memberLayout_doubles (name : String) (subMembers : List MessageMember) {size : Nat}
    (h : 0 < size) :
    memberLayout ⟨name, .double, .fixed size, subMembers⟩
      = List.replicate size (.scalar 8) := by
  unfold memberLayout
  exact if_pos ⟨h, rfl⟩

/-- A fixed, nonempty array of doubles, the one kind of array the decoder reads. -/
def IsDoubles (typeId : TypeId) (array : ArraySpec) : Prop :=
  ∃ size, array = .fixed size ∧ 0 < size ∧ typeId = .double

theorem memberLayout_array {name : String} {typeId : TypeId} {array : ArraySpec}
    {subMembers : List MessageMember} (ha : array ≠ .single) (hd : ¬IsDoubles typeId array) :
    memberLayout ⟨name, typeId, array, subMembers⟩ = [.unsupported] := by
  unfold memberLayout
  -- every array but a fixed one of doubles is refused, whatever it holds
  cases array with
  | single => exact absurd rfl ha
  | fixed size => exact if_neg fun hc => hd ⟨size, rfl, hc⟩
  | bounded bound => rfl
  | unbounded => rfl

/-- The layout of a registration packet. -/
def registration : List Item := [.scalar 2, .text, .text, .text, .scalar 4]

/-! ## Single reads -/

theorem readUInt32_short {s : RosStream} {bytes : List UInt8} (h : s.Reading bytes)
    (hn : bytes.length < 4) : s.readUInt32 = .error outOfBounds := by
  unfold readUInt32
  rw [readScalar_short h hn]
  rfl

theorem readUInt32_ok {s : RosStream} {bytes : List UInt8} (h : s.Reading bytes)
    (hn : ¬bytes.length < 4) :
    ∃ len s', s.readUInt32 = .ok (len, s') ∧ len.toNat = leNat (bytes.take 4)
      ∧ s'.Reading (bytes.drop 4) := by
  obtain ⟨s', hread, hrest⟩ := readScalar_ok (n := 4) h (by omega)
  refine ⟨UInt32.ofNat (leNat (bytes.take 4)), s', ?_, ?_, hrest⟩
  · unfold readUInt32
    rw [hread]
    rfl
  · have hlt := leNat_lt (bytes.take 4)
    have hlen : (bytes.take 4).length = 4 := by rw [List.length_take]; omega
    rw [hlen] at hlt
    rw [UInt32.toNat_ofNat']
    exact Nat.mod_eq_of_lt hlt

theorem readString_bad {s : RosStream} {bytes : List UInt8} {len : Nat} (h : s.Reading bytes)
    (hbad : len = 0 ∨ castInt bytes.length < len) : ∃ e, s.readString len = .error e := by
  rcases hbad with rfl | hshort
  · exact ⟨_, readString_zero h⟩
  · exact ⟨_, readString_short h hshort⟩

theorem readString_good {s : RosStream} {bytes : List UInt8} {len : Nat} (h : s.Reading bytes)
    (hlen : ¬400 < len) (hgood : ¬(len = 0 ∨ castInt bytes.length < len)) :
    ∃ s', s.readString len = .ok (bytes.take len, s') ∧ s'.Reading (bytes.drop len) := by
  have hle : len ≤ castInt bytes.length := by omega
  exact readString_ok h (by omega) hle (le_of_le_castInt (by omega) hle)

theorem readScalar_inv {s s' : RosStream} {bytes raw : List UInt8} {n : Nat} (h : s.Reading bytes)
    (hread : s.readScalar n = .ok (raw, s')) : raw = bytes.take n ∧ s'.Reading (bytes.drop n) := by
  by_cases hn : n ≤ bytes.length
  · obtain ⟨s₁, hok, h₁⟩ := readScalar_ok h hn
    rw [hok] at hread
    obtain ⟨rfl, rfl⟩ := Prod.mk.inj (Except.ok.inj hread)
    exact ⟨rfl, h₁⟩
  · rw [readScalar_short h (by omega)] at hread
    exact absurd hread (by simp)

theorem readUInt16_inv {s s' : RosStream} {bytes : List UInt8} {val : UInt16} (h : s.Reading bytes)
    (hread : s.readUInt16 = .ok (val, s')) : s'.Reading (bytes.drop 2) := by
  obtain ⟨⟨raw, s₁⟩, hscalar, hval⟩ := bind_eq_ok.mp hread
  obtain ⟨-, h₁⟩ := readScalar_inv h hscalar
  obtain ⟨-, rfl⟩ := Prod.mk.inj (Except.ok.inj hval)
  exact h₁

theorem readUInt32_inv {s s' : RosStream} {bytes : List UInt8} {len : UInt32} (h : s.Reading bytes)
    (hread : s.readUInt32 = .ok (len, s')) :
    len.toNat = leNat (bytes.take 4) ∧ s'.Reading (bytes.drop 4) := by
  by_cases hn : bytes.length < 4
  · rw [readUInt32_short h hn] at hread
    exact absurd hread (by simp)
  · obtain ⟨len', s₁, hok, hlen, h₁⟩ := readUInt32_ok h hn
    rw [hok] at hread
    obtain ⟨rfl, rfl⟩ := Prod.mk.inj (Except.ok.inj hread)
    exact ⟨hlen, h₁⟩

theorem readString_inv {s s' : RosStream} {bytes text : List UInt8} {len : Nat}
    (h : s.Reading bytes) (hlen : ¬400 < len) (hread : s.readString len = .ok (text, s')) :
    text = bytes.take len ∧ s'.Reading (bytes.drop len) := by
  by_cases hbad : len = 0 ∨ castInt bytes.length < len
  · obtain ⟨e, he⟩ := readString_bad h hbad
    rw [he] at hread
    exact absurd hread (by simp)
  · obtain ⟨s₁, hok, h₁⟩ := readString_good h hlen hbad
    rw [hok] at hread
    obtain ⟨rfl, rfl⟩ := Prod.mk.inj (Except.ok.inj hread)
    exact ⟨rfl, h₁⟩

/-- A length and a string that were read lie one behind the other. -/
theorem text_inv {α : Type} {p : UInt32 → Prop} [DecidablePred p]
    (hp : ∀ len, p len ↔ 400 < len.toNat) {s : RosStream} {bytes : List UInt8}
    (h : s.Reading bytes) {refused : α} {r : α × RosStream}
    {next : List UInt8 × RosStream → Except StdException (Bool × α × RosStream)}
    (hread : (s.readUInt32 >>= fun x =>
      if p x.1 then .ok (false, refused, x.2)
      else x.2.readString x.1.toNat >>= next) = .ok (true, r)) :
    ∃ s', next ((bytes.drop 4).take (leNat (bytes.take 4)), s') = .ok (true, r)
      ∧ s'.Reading ((bytes.drop 4).drop (leNat (bytes.take 4))) := by
  obtain ⟨⟨len, s₁⟩, hlen, hrest⟩ := bind_eq_ok.mp hread
  obtain ⟨hval, h₁⟩ := readUInt32_inv h hlen
  by_cases hlong : p len
  · rw [if_pos hlong] at hrest
    exact absurd hrest (by simp)
  · rw [if_neg hlong] at hrest
    obtain ⟨⟨text, s₂⟩, htext, hnext⟩ := bind_eq_ok.mp hrest
    obtain ⟨rfl, h₂⟩ := readString_inv h₁ (fun hc => hlong ((hp len).mpr hc)) htext
    rw [hval] at hnext h₂
    exact ⟨s₂, hnext, h₂⟩

/-! ## The decoders -/

/-- A decoder's result is the one its layout calls for. -/
def Agrees {α : Type} (v : Verdict) (r : Except StdException (Bool × α × RosStream)) : Prop :=
  match v with
  | .accepted rest => ∃ x s, r = .ok (true, x, s) ∧ s.Reading rest
  | .rejected => ∃ x s, r = .ok (false, x, s)
  | .starved => ∃ e, r = .error e

/-- A scalar is read as a scalar item. -/
theorem scalar_agrees {α : Type} {s : RosStream} {bytes : List UInt8} (h : s.Reading bytes)
    (n : Nat) (items : List Item)
    (next : List UInt8 × RosStream → Except StdException (Bool × α × RosStream))
    (hnext : ∀ raw s' rest, s'.Reading rest → Agrees (scan items rest) (next (raw, s'))) :
    Agrees (scan (.scalar n :: items) bytes) (s.readScalar n >>= next) := by
  unfold scan
  by_cases hn : n ≤ bytes.length
  · rw [if_pos hn]
    obtain ⟨s₁, hread, h₁⟩ := readScalar_ok h hn
    rw [hread, ok_bind]
    exact hnext _ s₁ _ h₁
  · rw [if_neg hn, readScalar_short h (by omega)]
    exact ⟨_, rfl⟩

/-- So is a number made of the bytes of a scalar. -/
theorem number_agrees {α β : Type} {n : Nat} (value : List UInt8 → β)
    (read : RosStream → Except StdException (β × RosStream))
    (hread : ∀ s, read s = s.readScalar n >>= fun r => .ok (value r.1, r.2))
    {s : RosStream} {bytes : List UInt8} (h : s.Reading bytes) (items : List Item)
    (next : β × RosStream → Except StdException (Bool × α × RosStream))
    (hnext : ∀ x s' rest, s'.Reading rest → Agrees (scan items rest) (next (x, s'))) :
    Agrees (scan (.scalar n :: items) bytes) (read s >>= next) := by
  rw [hread, bind_assoc]
  exact scalar_agrees h n items (fun r => next (value r.1, r.2))
    fun raw s' rest hs' => hnext (value raw) s' rest hs'

/-- A length, a test for excess and a string are read as a text item. -/
theorem text_agrees {α : Type} {p : UInt32 → Prop} [DecidablePred p]
    (hp : ∀ len, p len ↔ 400 < len.toNat) {s : RosStream} {bytes : List UInt8}
    (h : s.Reading bytes) (items : List Item) {refused : α}
    {next : List UInt8 × RosStream → Except StdException (Bool × α × RosStream)}
    (tail : UInt32 × RosStream → Except StdException (Bool × α × RosStream))
    (htail : ∀ len s, tail (len, s)
      = if p len then .ok (false, refused, s) else s.readString len.toNat >>= next)
    (hnext : ∀ text s' rest, s'.Reading rest → Agrees (scan items rest) (next (text, s'))) :
    Agrees (scan (.text :: items) bytes) (s.readUInt32 >>= tail) := by
  unfold scan
  by_cases hshort : bytes.length < 4
  · rw [if_pos hshort, readUInt32_short h hshort]
    exact ⟨_, rfl⟩
  · rw [if_neg hshort]
    obtain ⟨len, s₁, hread, hlen, h₁⟩ := readUInt32_ok h hshort
    rw [hread, ok_bind, htail, ← hlen]
    by_cases hlong : 400 < len.toNat
    · rw [if_pos hlong, if_pos ((hp len).mpr hlong)]
      exact ⟨_, _, rfl⟩
    · rw [if_neg hlong, if_neg (fun hc => hlong ((hp len).mp hc))]
      by_cases hbad : len.toNat = 0 ∨ castInt (bytes.drop 4).length < len.toNat
      · rw [if_pos hbad]
        obtain ⟨e, he⟩ := readString_bad h₁ hbad
        rw [he]
        exact ⟨e, rfl⟩
      · rw [if_neg hbad]
        obtain ⟨s₂, htext, h₂⟩ := readString_good h₁ hlong hbad
        rw [htext, ok_bind]
        exact hnext _ s₂ _ h₂

/-- A decoder that goes on with a second layout agrees with both together. -/
theorem Agrees.andThen {α β : Type} {v : Verdict} {k : List UInt8 → Verdict}
    {r : Except StdException (Bool × α × RosStream)}
    {f : Bool × α × RosStream → Except StdException (Bool × β × RosStream)} (h : Agrees v r)
    (hok : ∀ x s rest, s.Reading rest → Agrees (k rest) (f (true, x, s)))
    (hno : ∀ x s, ∃ y s', f (false, x, s) = .ok (false, y, s')) :
    Agrees (v.andThen k) (r >>= f) := by
  cases v with
  | accepted rest =>
      obtain ⟨x, s, rfl, hs⟩ := h
      exact hok x s rest hs
  | rejected =>
      obtain ⟨x, s, rfl⟩ := h
      exact hno x s
  | starved =>
      obtain ⟨e, rfl⟩ := h
      exact ⟨e, rfl⟩

/-- What is done to the result of a decoder does not change how it ends. -/
theorem Agrees.map {α β : Type} {v : Verdict} {r : Except StdException (Bool × α × RosStream)}
    (h : Agrees v r) (g : α → β) :
    Agrees v (r >>= fun x => .ok (x.1, g x.2.1, x.2.2)) := by
  cases v with
  | accepted rest =>
      obtain ⟨x, s, rfl, hs⟩ := h
      exact ⟨g x, s, rfl, hs⟩
  | rejected =>
      obtain ⟨x, s, rfl⟩ := h
      exact ⟨g x, s, rfl⟩
  | starved =>
      obtain ⟨e, rfl⟩ := h
      exact ⟨e, rfl⟩

open StreamDeserialization in
theorem readDoubles_agrees (k : Nat) {s : RosStream} {bytes : List UInt8} (h : s.Reading bytes) :
    Agrees (scan (List.replicate k (.scalar 8)) bytes)
      (readDoubles k s >>= fun r => .ok (true, r)) := by
  induction k generalizing s bytes with
  | zero => exact ⟨[], s, rfl, h⟩
  | succ k ih =>
      rw [List.replicate_succ]
      unfold readDoubles
      rw [bind_assoc]
      refine scalar_agrees h 8 _ (fun x =>
        (readDoubles k x.2 >>= fun r => .ok (.raw x.1 :: r.1, r.2)) >>= fun r => .ok (true, r)) ?_
      intro raw s' rest hs'
      -- the doubles behind the first are read as they would be alone
      have hmap := (ih hs').map (fun slot => Elem.raw raw :: slot)
      rw [bind_assoc] at hmap ⊢
      exact hmap

/-! ## The message decoder -/

section Decoder

open StreamDeserialization

/-- The `seq` of a header is a scalar item in front of the header's own layout. -/
theorem skipSeq_agrees {α : Type} {s : RosStream} {bytes : List UInt8} (h : s.Reading bytes)
    (name : String) (subMembers : List MessageMember) (items : List Item)
    (next : RosStream → Except StdException (Bool × α × RosStream))
    (hnext : ∀ s' rest, s'.Reading rest → Agrees (scan items rest) (next s')) :
    Agrees (scan ((if isStdHeader name subMembers then [.scalar 4] else []) ++ items) bytes)
      (skipSeq s name subMembers >>= next) := by
  unfold skipSeq
  by_cases hheader : isStdHeader name subMembers
  · rw [if_pos hheader, if_pos hheader, bind_assoc]
    exact number_agrees (fun raw => UInt32.ofNat (leNat raw)) readUInt32 (fun _ => rfl) h items
      (fun x => next x.2) fun _ s' rest hs' => hnext s' rest hs'
  · rw [if_neg hheader, if_neg hheader]
    exact hnext s bytes h

/-! One equation for each kind of member. -/

theorem deserializeMember_scalar {name : String} {typeId : TypeId}
    {subMembers : List MessageMember} {n : Nat} (h : scalarSize typeId = some n) (s : RosStream)
    (slot : Slot) :
    deserializeMember s slot ⟨name, typeId, .single, subMembers⟩ = (do
      let (raw, s) ← s.readScalar n
      return (true, [.raw raw], s)) := by
  unfold deserializeMember
  rw [if_neg (by simp [ArraySpec.isArray]), if_neg (by simp [ArraySpec.isArray]), h]

theorem deserializeMember_unsupported {name : String} {typeId : TypeId}
    {subMembers : List MessageMember} (h : scalarSize typeId = none) (hs : typeId ≠ .string)
    (hm : typeId ≠ .message) (s : RosStream) (slot : Slot) :
    deserializeMember s slot ⟨name, typeId, .single, subMembers⟩ = .ok (false, slot, s) := by
  unfold deserializeMember
  rw [if_neg (by simp [ArraySpec.isArray]), if_neg (by simp [ArraySpec.isArray]), h]
  cases typeId with
  | string => exact absurd rfl hs
  | message => exact absurd rfl hm
  | _ => rfl

theorem deserializeMember_string (name : String) (subMembers : List MessageMember) (s : RosStream)
    (slot : Slot) :
    deserializeMember s slot ⟨name, .string, .single, subMembers⟩ = (do
      let (len, s) ← s.readUInt32
      if 400 < len.toNat then return (false, slot, s)
      let (text, s) ← s.readString len.toNat
      return (true, [.str text], s)) := by
  unfold deserializeMember
  rw [if_neg (by simp [ArraySpec.isArray]), if_neg (by simp [ArraySpec.isArray])]
  rfl

theorem deserializeMember_message (name : String) (subMembers : List MessageMember)
    (s : RosStream) (slot : Slot) :
    deserializeMember s slot ⟨name, .message, .single, subMembers⟩ = (do
      let s ← skipSeq s name subMembers
      let (ok, fields, s) ← deserializeRos1ToStruct s slot.fields subMembers
      return (ok, [.msg fields], s)) := by
  unfold deserializeMember
  rw [if_neg (by simp [ArraySpec.isArray]), if_neg (by simp [ArraySpec.isArray])]
  rfl

theorem deserializeMember_doubles (name : String) (subMembers : List MessageMember) {size : Nat}
    (h : 0 < size) (s : RosStream) (slot : Slot) :
    deserializeMember s slot ⟨name, .double, .fixed size, subMembers⟩
      = (readDoubles size s >>= fun r => .ok (true, r)) := by
  unfold deserializeMember
  rw [if_pos (by simp [ArraySpec.isArray, ArraySpec.isUpperBound, ArraySpec.arraySize, h])]
  rfl

theorem deserializeMember_array {name : String} {typeId : TypeId} {array : ArraySpec}
    {subMembers : List MessageMember} (ha : array ≠ .single) (hd : ¬IsDoubles typeId array)
    (s : RosStream) (slot : Slot) :
    deserializeMember s slot ⟨name, typeId, array, subMembers⟩ = .ok (false, slot, s) := by
  unfold deserializeMember
  cases array with
  | single => exact absurd rfl ha
  | fixed size =>
      have hnot : ¬((ArraySpec.fixed size).isArray && !(ArraySpec.fixed size).isUpperBound
          && decide (0 < (ArraySpec.fixed size).arraySize) && typeId == .double) = true := by
        intro hc
        simp only [ArraySpec.arraySize, Bool.and_eq_true, beq_iff_eq] at hc
        exact hd ⟨size, rfl, of_decide_eq_true hc.1.2, hc.2⟩
      rw [if_neg hnot]
      rfl
  | bounded bound => rfl
  | unbounded => rfl

mutual

theorem deserializeMember_agrees {s : RosStream} {bytes : List UInt8} (h : s.Reading bytes)
    (slot : Slot) : ∀ member : MessageMember,
    Agrees (scan (memberLayout member) bytes) (deserializeMember s slot member)
  | ⟨name, typeId, array, subMembers⟩ => by
      by_cases ha : array = .single
      · subst ha
        cases hsize : scalarSize typeId with
        | some n =>
            rw [memberLayout_scalar hsize, deserializeMember_scalar hsize]
            exact scalar_agrees h n [] _ fun raw s' rest hs' => ⟨[Elem.raw raw], s', rfl, hs'⟩
        | none =>
            by_cases hs : typeId = .string
            · subst hs
              rw [memberLayout_string, deserializeMember_string]
              exact text_agrees (fun _ => Iff.rfl) h [] _ (fun _ _ => rfl)
                fun text s' rest hs' => ⟨[Elem.str text], s', rfl, hs'⟩
            · by_cases hm : typeId = .message
              · subst hm
                rw [memberLayout_message, deserializeMember_message]
                refine skipSeq_agrees h name subMembers (layout subMembers) _ ?_
                intro s' rest hs'
                exact (deserialize_agrees hs' slot.fields subMembers).map
                  (fun fields => [Elem.msg fields])
              · rw [memberLayout_unsupported hsize hs hm, deserializeMember_unsupported hsize hs hm]
                exact ⟨slot, s, rfl⟩
      · by_cases hd : IsDoubles typeId array
        · obtain ⟨size, rfl, hpos, rfl⟩ := hd
          rw [memberLayout_doubles name subMembers hpos, deserializeMember_doubles _ _ hpos]
          exact readDoubles_agrees size h
        · rw [memberLayout_array ha hd, deserializeMember_array ha hd]
          exact ⟨slot, s, rfl⟩

/-- **The decoder refines its layout.** -/
theorem deserialize_agrees {s : RosStream} {bytes : List UInt8} (h : s.Reading bytes)
    (msgObj : MsgObject) : ∀ members : List MessageMember,
    Agrees (scan (layout members) bytes) (deserializeRos1ToStruct s msgObj members)
  | [] => ⟨[], s, rfl, h⟩
  | member :: members => by
      unfold layout deserializeRos1ToStruct
      rw [scan_append]
      refine (deserializeMember_agrees h (msgObj.headD []) member).andThen ?_ ?_
      · intro slot s' rest hs'
        exact (deserialize_agrees hs' msgObj.tail members).map (fun obj => slot :: obj)
      · intro slot s'
        exact ⟨slot :: msgObj.tail, s', rfl⟩

end

end Decoder

/-! ## The registration parser -/

theorem excessiveTesting_iff (len : UInt32) : excessiveTesting len = true ↔ 400 < len.toNat := by
  unfold excessiveTesting
  exact decide_eq_true_iff

/-- **`get_topic_info` refines the layout of a registration packet.** -/
theorem getTopicInfo_agrees (topicInfo : TopicInfo) {s : RosStream} {bytes : List UInt8}
    (h : s.Reading bytes) :
    Agrees (scan registration bytes) (getTopicInfo topicInfo s) := by
  unfold registration getTopicInfo
  refine number_agrees (fun raw => UInt16.ofNat (leNat raw)) readUInt16 (fun _ => rfl) h _ _ ?_
  intro id s₁ rest₁ h₁
  refine text_agrees excessiveTesting_iff h₁ _ _ (fun _ _ => rfl) ?_
  intro name s₂ rest₂ h₂
  refine text_agrees excessiveTesting_iff h₂ _ _ (fun _ _ => rfl) ?_
  intro type s₃ rest₃ h₃
  refine text_agrees excessiveTesting_iff h₃ _ _ (fun _ _ => rfl) ?_
  intro md5 s₄ rest₄ h₄
  refine number_agrees (fun raw => Int32.ofNat (leNat raw)) readInt32 (fun _ => rfl) h₄ [] _ ?_
  intro size s₅ rest₅ h₅
  exact ⟨_, s₅, rfl, h₅⟩

/-- The message type a registration packet names, behind the topic id and the topic name. -/
def registeredType (body : List UInt8) : List UInt8 :=
  let name := body.drop 2
  let type := (name.drop 4).drop (leNat (name.take 4))
  (type.drop 4).take (leNat (type.take 4))

theorem getTopicInfo_messageType {topicInfo info : TopicInfo} {s s' : RosStream}
    {body : List UInt8} (h : s.Reading body) (hget : getTopicInfo topicInfo s = .ok (true, info, s')) :
    info.messageType = registeredType body := by
  unfold getTopicInfo at hget
  obtain ⟨⟨id, s₁⟩, hid, hget⟩ := bind_eq_ok.mp hget
  have h₁ := readUInt16_inv h hid
  obtain ⟨s₂, hname, h₂⟩ := text_inv excessiveTesting_iff h₁ hget
  obtain ⟨s₃, htype, h₃⟩ := text_inv excessiveTesting_iff h₂ hname
  obtain ⟨s₄, hmd5, h₄⟩ := text_inv excessiveTesting_iff h₃ htype
  obtain ⟨⟨size, s₅⟩, -, hinfo⟩ := bind_eq_ok.mp hmd5
  obtain ⟨rfl, -⟩ := Prod.mk.inj (Prod.mk.inj (Except.ok.inj hinfo)).2
  rfl

end RosserialServer
