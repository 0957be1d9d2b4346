import RosserialServer.Proof.Layout

/-!
# The registration format

A registration is a topic id, three strings with their lengths in front, and a buffer
size. Read in order, any bytes begin with one, or come to a string that is too long, or end
early (`format_cases`). `get_topic_info` tells them apart, and throws only where the field
it is at is cut off, unless it comes to a string that it cannot read though all its bytes
are there: an empty one (`parses_exactly_iff`).
-/

namespace RosserialServer

open Bytes Outcome RosStream

/-! ## The format -/

/-- A string as it is sent: its length, then its bytes. -/
def stringField (text : List UInt8) : List UInt8 := leBytes 4 text.length ++ text

/-- No string is longer than a registration may have it. -/
def AllShort (texts : List (List UInt8)) : Prop := ∀ t ∈ texts, t.length ≤ 400

/-- The bytes begin with the fields of `topicInfo`, and `rest` follows. -/
def BeginsWith (b : List UInt8) (topicInfo : TopicInfo) (rest : List UInt8) : Prop :=
  AllShort [topicInfo.topicName, topicInfo.messageType, topicInfo.md5sum]
    ∧ b = leBytes 2 topicInfo.topicId.toNat
      ++ ([topicInfo.topicName, topicInfo.messageType, topicInfo.md5sum].flatMap stringField
        ++ (leBytes 4 topicInfo.bufferSize.toUInt32.toNat ++ rest))

/-- After the id and fewer than three strings comes a length above 400. -/
def MeetsLong (b : List UInt8) : Prop :=
  ∃ (id : UInt16) (texts : List (List UInt8)) (n : Nat) (rest : List UInt8),
    texts.length < 3 ∧ AllShort texts ∧ 400 < n ∧ n < 2 ^ 32
      ∧ b = leBytes 2 id.toNat ++ (texts.flatMap stringField ++ (leBytes 4 n ++ rest))

/-- The bytes end within a string or its length. -/
def CutString (b : List UInt8) : Prop :=
  b.length < 4 ∨ ∃ (n : Nat) (text : List UInt8), n ≤ 400 ∧ text.length < n ∧ b = leBytes 4 n ++ text

/-- The bytes end before the field that comes next is complete. -/
def EndsEarly (b : List UInt8) : Prop :=
  b.length < 2
    ∨ ∃ (id : UInt16) (texts : List (List UInt8)) (rest : List UInt8), AllShort texts
      ∧ b = leBytes 2 id.toNat ++ (texts.flatMap stringField ++ rest)
      ∧ (texts.length < 3 ∧ CutString rest ∨ texts.length = 3 ∧ rest.length < 4)

/--
After the id and fewer than three strings comes a whole string that the reader does not
read: an empty one, or one with so much behind it that `get_length` is below its length.
-/
def MeetsUnreadable (b : List UInt8) : Prop :=
  ∃ (id : UInt16) (texts : List (List UInt8)) (t rest : List UInt8),
    texts.length < 3 ∧ AllShort texts ∧ t.length ≤ 400
      ∧ (t = [] ∨ castInt (t ++ rest).length < t.length)
      ∧ b = leBytes 2 id.toNat ++ (texts.flatMap stringField ++ (stringField t ++ rest))

/-! ## The reads, one by one -/

/-- One item, read as `get_topic_info` reads its fields. -/
def readItem : Item → RosStream → Except StdException (Bool × List UInt8 × RosStream)
  | .scalar n, s => do
      let (raw, s) ← s.readScalar n
      return (true, raw, s)
  | .text, s => do
      let (len, s) ← s.readUInt32
      if excessiveTesting len then return (false, [], s)
      let (text, s) ← s.readString len.toNat
      return (true, text, s)
  | .unsupported, s => .ok (false, [], s)

/-- Items in a row, until one is refused. -/
def readItems : List Item → RosStream → Except StdException (Bool × List (List UInt8) × RosStream)
  | [], s => .ok (true, [], s)
  | item :: items, s => do
      let (ok, bytes, s) ← readItem item s
      if !ok then return (false, [], s)
      let (ok, fields, s) ← readItems items s
      return (ok, bytes :: fields, s)

/-- The bytes begin with the whole item. -/
def Complete : Item → List UInt8 → Prop
  | .scalar n, b => n ≤ b.length
  | .text, b => 4 ≤ b.length ∧ leNat (b.take 4) ≤ (b.drop 4).length
  | .unsupported, _ => True

/-- The fields of a registration are read in order; `item`, with `ahead` in front of it, throws. -/
def ThrowsAt (b : List UInt8) (item : Item) (ahead : List UInt8) (e : StdException) : Prop :=
  ∃ done later fields s, registration = done ++ item :: later
    ∧ readItems done (ofBuffer b) = .ok (true, fields, s) ∧ s.Reading ahead
    ∧ readItem item s = .error e

/-- `get_topic_info` parses exactly the format. -/
structure ParsesExactly (b : List UInt8) : Prop where
  complete : ∀ topicInfo rest, BeginsWith b topicInfo rest →
    ∃ s, getTopicInfo {} (ofBuffer b) = .ok (true, topicInfo, s) ∧ s.Reading rest
  refused : MeetsLong b → ∃ topicInfo s, getTopicInfo {} (ofBuffer b) = .ok (false, topicInfo, s)
  /-- The field being read is not complete. -/
  thrown : ∀ e, getTopicInfo {} (ofBuffer b) = .error e →
    ∃ item ahead, ThrowsAt b item ahead e ∧ ¬Complete item ahead

/-! ## Strings in a row -/

/-- What a number of strings in a row come to. -/
inductive Texts where
  | read (texts : List (List UInt8)) (rest : List UInt8)
  | excessive
  | cutOff
  deriving DecidableEq, Repr

/-- One more string in front. -/
def Texts.cons (t : List UInt8) : Texts → Texts
  | read texts rest => read (t :: texts) rest
  | excessive => excessive
  | cutOff => cutOff

def readTexts : Nat → List UInt8 → Texts
  | 0, b => .read [] b
  | k + 1, b =>
      if b.length < 4 then .cutOff
      else if 400 < leNat (b.take 4) then .excessive
      else if (b.drop 4).length < leNat (b.take 4) then .cutOff
      else (readTexts k ((b.drop 4).drop (leNat (b.take 4)))).cons
        ((b.drop 4).take (leNat (b.take 4)))

theorem take_length_field {n : Nat} (hn : n < 2 ^ 32) (rest : List UInt8) :
    leNat ((leBytes 4 n ++ rest).take 4) = n ∧ (leBytes 4 n ++ rest).drop 4 = rest := by
  have hlen : (leBytes 4 n).length = 4 := length_leBytes 4 n
  refine ⟨?_, ?_⟩
  · rw [List.take_left' hlen]
    exact leNat_leBytes hn
  · exact List.drop_left' hlen

theorem readTexts_string {t : List UInt8} (ht : t.length ≤ 400) (k : Nat) (rest : List UInt8) :
    readTexts (k + 1) (stringField t ++ rest) = (readTexts k rest).cons t := by
  obtain ⟨htake, hdrop⟩ := take_length_field (n := t.length) (by omega) (t ++ rest)
  have hlen : ¬(leBytes 4 t.length ++ (t ++ rest)).length < 4 := by simp
  have hwhole : ¬(t ++ rest).length < t.length := by simp
  rw [readTexts, stringField, List.append_assoc, htake, hdrop, if_neg hlen, if_neg (by omega),
    if_neg hwhole, List.take_left, List.drop_left]

theorem readTexts_long {n : Nat} (hlong : 400 < n) (hn : n < 2 ^ 32) (k : Nat)
    (rest : List UInt8) : readTexts (k + 1) (leBytes 4 n ++ rest) = .excessive := by
  obtain ⟨htake, -⟩ := take_length_field hn rest
  have hlen : ¬(leBytes 4 n ++ rest).length < 4 := by simp
  rw [readTexts, htake, if_neg hlen, if_pos hlong]

theorem readTexts_cut {b : List UInt8} (h : CutString b) (k : Nat) :
    readTexts (k + 1) b = .cutOff := by
  rw [readTexts]
  rcases h with hshort | ⟨n, text, hn, htext, rfl⟩
  · rw [if_pos hshort]
  · obtain ⟨htake, hdrop⟩ := take_length_field (n := n) (by omega) text
    have hlen : ¬(leBytes 4 n ++ text).length < 4 := by simp
    rw [htake, hdrop, if_neg hlen, if_neg (by omega), if_pos htext]

/-- Strings that are there are read, whatever comes behind them. -/
theorem readTexts_append {texts : List (List UInt8)} (h : AllShort texts) (k : Nat)
    (rest : List UInt8) :
    readTexts (texts.length + k) (texts.flatMap stringField ++ rest)
      = texts.foldr Texts.cons (readTexts k rest) := by
  induction texts with
  | nil =>
      rw [List.length_nil, Nat.zero_add]
      rfl
  | cons t texts ih =>
      have hnum : (t :: texts).length + k = texts.length + k + 1 := by
        rw [List.length_cons]
        omega
      rw [List.flatMap_cons, List.append_assoc, hnum, readTexts_string (h t (by simp)),
        ih fun t' ht' => h t' (by simp [ht'])]
      rfl

/-- **Any bytes begin with a string, or with a length that is too large, or end early.** -/
theorem string_cases (b : List UInt8) :
    (∃ t rest, t.length ≤ 400 ∧ b = stringField t ++ rest)
      ∨ (∃ n rest, 400 < n ∧ n < 2 ^ 32 ∧ b = leBytes 4 n ++ rest) ∨ CutString b := by
  by_cases hshort : b.length < 4
  · exact Or.inr (Or.inr (Or.inl hshort))
  · have htake : (b.take 4).length = 4 := by
      rw [List.length_take]
      omega
    have hlt := leNat_lt (b.take 4)
    have hfield := leBytes_leNat (b.take 4)
    rw [htake] at hlt hfield
    have hsplit : b = leBytes 4 (leNat (b.take 4)) ++ b.drop 4 := by
      rw [hfield, List.take_append_drop]
    generalize leNat (b.take 4) = n at hlt hsplit
    by_cases hlong : 400 < n
    · exact Or.inr (Or.inl ⟨n, b.drop 4, hlong, hlt, hsplit⟩)
    · by_cases hcut : (b.drop 4).length < n
      · exact Or.inr (Or.inr (Or.inr ⟨n, b.drop 4, by omega, hcut, hsplit⟩))
      · have hlen : ((b.drop 4).take n).length = n := by
          rw [List.length_take]
          omega
        refine Or.inl ⟨(b.drop 4).take n, (b.drop 4).drop n, by omega, ?_⟩
        unfold stringField
        rw [hlen, List.append_assoc, List.take_append_drop]
        exact hsplit

/-- The same for a number of strings. -/
theorem texts_cases (k : Nat) (b : List UInt8) :
    (∃ texts rest, texts.length = k ∧ AllShort texts ∧ b = texts.flatMap stringField ++ rest)
      ∨ (∃ texts n rest, texts.length < k ∧ AllShort texts ∧ 400 < n ∧ n < 2 ^ 32
        ∧ b = texts.flatMap stringField ++ (leBytes 4 n ++ rest))
      ∨ ∃ texts rest, texts.length < k ∧ AllShort texts ∧ CutString rest
        ∧ b = texts.flatMap stringField ++ rest := by
  induction k generalizing b with
  | zero => exact Or.inl ⟨[], b, rfl, by intro t ht; exact absurd ht (by simp), rfl⟩
  | succ k ih =>
      have hnil : AllShort [] := by
        intro t ht
        exact absurd ht (by simp)
      rcases string_cases b with ⟨t, rest, ht, rfl⟩ | ⟨n, rest, hlong, hn, rfl⟩ | hcut
      · have hcons : ∀ texts, AllShort texts → AllShort (t :: texts) := by
          intro texts htexts t' ht'
          rcases List.mem_cons.mp ht' with rfl | ht'
          · exact ht
          · exact htexts t' ht'
        have hfield : ∀ texts : List (List UInt8),
            (t :: texts).flatMap stringField = stringField t ++ texts.flatMap stringField := by
          intro texts
          exact List.flatMap_cons
        -- what comes behind the first string decides
        rcases ih rest with ⟨texts, rest', hlen, hshort, rfl⟩
          | ⟨texts, n, rest', hlen, hshort, hlong, hn, rfl⟩ | ⟨texts, rest', hlen, hshort, hcut, rfl⟩
        · refine Or.inl ⟨t :: texts, rest', by simp [hlen], hcons texts hshort, ?_⟩
          rw [hfield, List.append_assoc]
        · refine Or.inr (Or.inl ⟨t :: texts, n, rest', by simp [hlen], hcons texts hshort, hlong,
            hn, ?_⟩)
          rw [hfield, List.append_assoc]
        · refine Or.inr (Or.inr ⟨t :: texts, rest', by simp [hlen], hcons texts hshort, hcut, ?_⟩)
          rw [hfield, List.append_assoc]
      · exact Or.inr (Or.inl ⟨[], n, rest, Nat.succ_pos k, hnil, hlong, hn, rfl⟩)
      · exact Or.inr (Or.inr ⟨[], b, Nat.succ_pos k, hnil, hcut, rfl⟩)

theorem readTexts_read {texts : List (List UInt8)} (h : AllShort texts) (rest : List UInt8) :
    readTexts texts.length (texts.flatMap stringField ++ rest) = .read texts rest := by
  have happend := readTexts_append h 0 rest
  rw [Nat.add_zero] at happend
  rw [happend, readTexts]
  clear happend h
  induction texts with
  | nil => rfl
  | cons t texts ih =>
      rw [List.foldr_cons, ih]
      rfl

/-- An ending after fewer strings than are expected is the ending of all. -/
theorem readTexts_ends {v : Texts} (hv : ∀ t, v.cons t = v) {k : Nat} {texts : List (List UInt8)}
    (hk : texts.length < k) (h : AllShort texts) {rest : List UInt8}
    (hrest : ∀ j, readTexts (j + 1) rest = v) :
    readTexts k (texts.flatMap stringField ++ rest) = v := by
  have hnum : k = texts.length + (k - texts.length - 1 + 1) := by omega
  rw [hnum, readTexts_append h, hrest]
  clear hnum h hk
  induction texts with
  | nil => rfl
  | cons t texts ih => rw [List.foldr_cons, ih, hv]

/-! ## The three endings -/

theorem id_inj {id id' : UInt16} {x y : List UInt8}
    (h : leBytes 2 id.toNat ++ x = leBytes 2 id'.toNat ++ y) : x = y :=
  (List.append_inj h (by rw [length_leBytes, length_leBytes])).2

/-- What ends early, read as strings. -/
theorem endsEarly_texts {id : UInt16} {x : List UInt8} (h : EndsEarly (leBytes 2 id.toNat ++ x)) :
    readTexts 3 x = .cutOff ∨ ∃ texts rest, readTexts 3 x = .read texts rest ∧ rest.length < 4 := by
  rcases h with hshort | ⟨id', texts, rest, htexts, hb, ⟨hlen, hcut⟩ | ⟨hlen, hrest⟩⟩
  · rw [List.length_append, length_leBytes] at hshort
    omega
  · rw [id_inj hb]
    exact Or.inl (readTexts_ends (fun _ => rfl) hlen htexts fun j => readTexts_cut hcut j)
  · rw [id_inj hb, ← hlen]
    exact Or.inr ⟨texts, rest, readTexts_read htexts rest, hrest⟩

theorem BeginsWith.not_endsEarly {b rest : List UInt8} {topicInfo : TopicInfo}
    (h : BeginsWith b topicInfo rest) : ¬EndsEarly b := by
  obtain ⟨hshort, rfl⟩ := h
  intro hearly
  have hread := readTexts_read hshort
    (leBytes 4 topicInfo.bufferSize.toUInt32.toNat ++ rest)
  rcases endsEarly_texts hearly with hcut | ⟨texts, rest', hread', hlen⟩
  · exact absurd (hread.symm.trans hcut) (by simp)
  · obtain ⟨-, rfl⟩ := Texts.read.inj (hread.symm.trans hread')
    rw [List.length_append, length_leBytes] at hlen
    omega

theorem MeetsLong.not_endsEarly {b : List UInt8} (h : MeetsLong b) : ¬EndsEarly b := by
  obtain ⟨id, texts, n, rest, hlen, hshort, hlong, hn, rfl⟩ := h
  intro hearly
  have hexcessive : readTexts 3 (texts.flatMap stringField ++ (leBytes 4 n ++ rest)) = .excessive :=
    readTexts_ends (fun _ => rfl) hlen hshort fun j => readTexts_long hlong hn j rest
  rcases endsEarly_texts hearly with hcut | ⟨texts', rest', hread, -⟩
  · exact absurd (hexcessive.symm.trans hcut) (by simp)
  · exact absurd (hexcessive.symm.trans hread) (by simp)

theorem int32_field (v : UInt32) : (Int32.ofNat v.toNat).toUInt32 = v := by
  simp

/-- An id of two bytes. -/
theorem id_field {b : List UInt8} (h : 2 ≤ b.length) :
    ∃ id : UInt16, b = leBytes 2 id.toNat ++ b.drop 2 := by
  have htake : (b.take 2).length = 2 := by
    rw [List.length_take]
    omega
  have hlt := leNat_lt (b.take 2)
  have hfield := leBytes_leNat (b.take 2)
  rw [htake] at hlt hfield
  refine ⟨UInt16.ofNat (leNat (b.take 2)), ?_⟩
  have hnum : (UInt16.ofNat (leNat (b.take 2))).toNat = leNat (b.take 2) := by
    rw [UInt16.toNat_ofNat']
    exact Nat.mod_eq_of_lt hlt
  rw [hnum, hfield, List.take_append_drop]

/-- **Any bytes begin with a registration, or come to a length that is too large, or end early.** -/
theorem format_cases (b : List UInt8) :
    (∃ topicInfo rest, BeginsWith b topicInfo rest) ∨ MeetsLong b ∨ EndsEarly b := by
  by_cases hid : b.length < 2
  · exact Or.inr (Or.inr (Or.inl hid))
  · obtain ⟨id, hsplit⟩ := id_field (b := b) (by omega)
    rcases texts_cases 3 (b.drop 2) with ⟨texts, rest, hlen, hshort, hb⟩
      | ⟨texts, n, rest, hlen, hshort, hlong, hn, hb⟩ | ⟨texts, rest, hlen, hshort, hcut, hb⟩
    · by_cases hsize : rest.length < 4
      · exact Or.inr (Or.inr (Or.inr ⟨id, texts, rest, hshort, by rw [← hb]; exact hsplit,
          Or.inr ⟨hlen, hsize⟩⟩))
      · -- three strings and four bytes: the registration is there
        obtain ⟨name, type, md5, rfl⟩ : ∃ name type md5, texts = [name, type, md5] := by
          match texts, hlen with
          | [name, type, md5], _ => exact ⟨name, type, md5, rfl⟩
        have htake' : (rest.take 4).length = 4 := by
          rw [List.length_take]
          omega
        have hlt' := leNat_lt (rest.take 4)
        have hfield' := leBytes_leNat (rest.take 4)
        rw [htake'] at hlt' hfield'
        have hnum' : (Int32.ofNat (leNat (rest.take 4))).toUInt32.toNat = leNat (rest.take 4) := by
          have hval : (UInt32.ofNat (leNat (rest.take 4))).toNat = leNat (rest.take 4) := by
            rw [UInt32.toNat_ofNat']
            exact Nat.mod_eq_of_lt hlt'
          rw [← hval, int32_field, hval]
        refine Or.inl ⟨⟨id, name, type, md5, Int32.ofNat (leNat (rest.take 4))⟩, rest.drop 4,
          hshort, ?_⟩
        rw [hnum', hfield', List.take_append_drop, ← hb]
        exact hsplit
    · exact Or.inr (Or.inl ⟨id, texts, n, rest, hlen, hshort, hlong, hn, by
        rw [← hb]; exact hsplit⟩)
    · exact Or.inr (Or.inr (Or.inr ⟨id, texts, rest, hshort, by rw [← hb]; exact hsplit,
        Or.inl ⟨hlen, hcut⟩⟩))

/-- What ends early is what does neither of the other two. -/
theorem endsEarly_iff (b : List UInt8) :
    EndsEarly b ↔ (¬∃ topicInfo rest, BeginsWith b topicInfo rest) ∧ ¬MeetsLong b := by
  constructor
  · intro hearly
    exact ⟨fun ⟨topicInfo, rest, hbegins⟩ => hbegins.not_endsEarly hearly,
      fun hlong => hlong.not_endsEarly hearly⟩
  · rintro ⟨hbegins, hlong⟩
    rcases format_cases b with h | h | h
    · exact absurd h hbegins
    · exact absurd h hlong
    · exact h

/-! ## What the reader makes of it -/

/-- A whole string that is not read. -/
def Unreadable (t rest : List UInt8) : Prop := t = [] ∨ castInt (t ++ rest).length < t.length

theorem scan_string {t : List UInt8} (ht : t.length ≤ 400) (items : List Item)
    (rest : List UInt8) :
    (¬Unreadable t rest → scan (.text :: items) (stringField t ++ rest) = scan items rest)
      ∧ (Unreadable t rest → scan (.text :: items) (stringField t ++ rest) = .starved) := by
  obtain ⟨htake, hdrop⟩ := take_length_field (n := t.length) (by omega) (t ++ rest)
  have hlen : ¬(leBytes 4 t.length ++ (t ++ rest)).length < 4 := by simp
  have hiff : t.length = 0 ∨ castInt (t ++ rest).length < t.length ↔ Unreadable t rest := by
    unfold Unreadable
    rw [List.length_eq_zero_iff]
  unfold stringField
  rw [List.append_assoc, scan, htake, hdrop, if_neg hlen, if_neg (by omega), List.drop_left]
  refine ⟨?_, ?_⟩
  · intro hgood
    rw [if_neg (mt hiff.mp hgood)]
  · intro hbad
    rw [if_pos (hiff.mpr hbad)]

theorem scan_long {n : Nat} (hlong : 400 < n) (hn : n < 2 ^ 32) (items : List Item)
    (rest : List UInt8) : scan (.text :: items) (leBytes 4 n ++ rest) = .rejected := by
  obtain ⟨htake, -⟩ := take_length_field hn rest
  have hlen : ¬(leBytes 4 n ++ rest).length < 4 := by simp
  rw [scan, htake, if_neg hlen, if_pos hlong]

/-- Strings in a row that are all read. -/
theorem scan_readable {texts : List (List UInt8)} (hshort : AllShort texts) {rest : List UInt8}
    (hgood : ∀ pre t suf, texts = pre ++ t :: suf →
      ¬Unreadable t (suf.flatMap stringField ++ rest)) (items : List Item) :
    scan (List.replicate texts.length .text ++ items) (texts.flatMap stringField ++ rest)
      = scan items rest := by
  induction texts with
  | nil => rfl
  | cons t texts ih =>
      have hhead := (scan_string (hshort t (by simp)) (List.replicate texts.length .text ++ items)
        (texts.flatMap stringField ++ rest)).1 (hgood [] t texts rfl)
      rw [List.length_cons, List.replicate_succ, List.cons_append, List.flatMap_cons,
        List.append_assoc, hhead]
      refine ih (fun t' ht' => hshort t' (by simp [ht'])) ?_
      intro pre t' suf heq
      exact hgood (t :: pre) t' suf (by rw [heq]; rfl)

/-- One that is not read ends it, if none before it has. -/
theorem scan_unreadable {texts : List (List UInt8)} (hshort : AllShort texts) {t rest : List UInt8}
    (ht : t.length ≤ 400) (hbad : Unreadable t rest) {k : Nat} (hk : texts.length < k)
    (items : List Item) :
    scan (List.replicate k .text ++ items)
      (texts.flatMap stringField ++ (stringField t ++ rest)) = .starved := by
  induction texts generalizing k with
  | nil =>
      obtain ⟨k, rfl⟩ : ∃ j, k = j + 1 := ⟨k - 1, by rw [List.length_nil] at hk; omega⟩
      rw [List.replicate_succ, List.cons_append]
      exact (scan_string ht _ rest).2 hbad
  | cons t' texts ih =>
      obtain ⟨k, rfl⟩ : ∃ j, k = j + 1 := ⟨k - 1, by rw [List.length_cons] at hk; omega⟩
      rw [List.length_cons] at hk
      have hhead := scan_string (hshort t' (by simp)) (List.replicate k .text ++ items)
        (texts.flatMap stringField ++ (stringField t ++ rest))
      rw [List.replicate_succ, List.cons_append, List.flatMap_cons, List.append_assoc]
      by_cases hfirst : Unreadable t' (texts.flatMap stringField ++ (stringField t ++ rest))
      · exact hhead.2 hfirst
      · rw [hhead.1 hfirst]
        exact ih (fun x hx => hshort x (by simp [hx])) (by omega)

theorem scan_registration (id : UInt16) (x : List UInt8) :
    scan registration (leBytes 2 id.toNat ++ x)
      = scan (List.replicate 3 .text ++ [.scalar 4]) x := by
  have hlen : 2 ≤ (leBytes 2 id.toNat ++ x).length := by simp
  have hdrop : (leBytes 2 id.toNat ++ x).drop 2 = x := List.drop_left' (length_leBytes 2 _)
  unfold registration
  rw [scan, if_pos hlen, hdrop]
  rfl

theorem MeetsUnreadable.scan {b : List UInt8} (h : MeetsUnreadable b) :
    scan registration b = .starved := by
  obtain ⟨id, texts, t, rest, hlen, hshort, ht, hbad, rfl⟩ := h
  rw [scan_registration]
  exact scan_unreadable hshort ht hbad hlen [.scalar 4]

/-- Where no string is unreadable, the strings that are there are read. -/
theorem readable_of_not {id : UInt16} {texts : List (List UInt8)} {rest : List UInt8}
    (h : ¬MeetsUnreadable (leBytes 2 id.toNat ++ (texts.flatMap stringField ++ rest)))
    (hlen : texts.length ≤ 3) (hshort : AllShort texts) (pre : List (List UInt8))
    (t : List UInt8) (suf : List (List UInt8)) (heq : texts = pre ++ t :: suf) :
    ¬Unreadable t (suf.flatMap stringField ++ rest) := by
  intro hbad
  apply h
  have hpre : pre.length < 3 := by
    have := congrArg List.length heq
    rw [List.length_append, List.length_cons] at this
    omega
  refine ⟨id, pre, t, suf.flatMap stringField ++ rest, hpre, ?_, ?_, hbad, ?_⟩
  · intro t' ht'
    exact hshort t' (by rw [heq]; simp [ht'])
  · exact hshort t (by rw [heq]; simp)
  · rw [heq, List.flatMap_append, List.flatMap_cons, List.append_assoc, List.append_assoc]

theorem BeginsWith.scan {b rest : List UInt8} {topicInfo : TopicInfo}
    (h : BeginsWith b topicInfo rest) (hgood : ¬MeetsUnreadable b) :
    scan registration b = .accepted rest := by
  obtain ⟨hshort, rfl⟩ := h
  have hsize : 4 ≤ (leBytes 4 topicInfo.bufferSize.toUInt32.toNat ++ rest).length := by simp
  have hdrop : (leBytes 4 topicInfo.bufferSize.toUInt32.toNat ++ rest).drop 4 = rest :=
    List.drop_left' (length_leBytes 4 _)
  rw [scan_registration]
  refine (scan_readable hshort (readable_of_not hgood (Nat.le_refl 3) hshort) [.scalar 4]).trans ?_
  rw [RosserialServer.scan, if_pos hsize, hdrop, RosserialServer.scan]

theorem MeetsLong.scan {b : List UInt8} (h : MeetsLong b) (hgood : ¬MeetsUnreadable b) :
    scan registration b = .rejected := by
  obtain ⟨id, texts, n, rest, hlen, hshort, hlong, hn, rfl⟩ := h
  have hnum : List.replicate 3 Item.text ++ [Item.scalar 4]
      = List.replicate texts.length Item.text
        ++ (Item.text :: (List.replicate (2 - texts.length) Item.text ++ [Item.scalar 4])) := by
    have hsum : texts.length + (2 - texts.length + 1) = 3 := by omega
    rw [← List.cons_append, ← List.replicate_succ, ← List.append_assoc,
      List.replicate_append_replicate, hsum]
  rw [scan_registration, hnum,
    scan_readable hshort (readable_of_not hgood (by omega) hshort)]
  exact scan_long hlong hn _ rest

/-- What is returned is what the bytes spell, field by field. -/
theorem getTopicInfo_fields {s' : RosStream} {topicInfo topicInfo₀ info : TopicInfo}
    {rest : List UInt8} {b : List UInt8} (h : BeginsWith b topicInfo rest)
    (hget : getTopicInfo topicInfo₀ (ofBuffer b) = .ok (true, info, s')) : info = topicInfo := by
  obtain ⟨hshort, rfl⟩ := h
  have hfield : ∀ t ∈ [topicInfo.topicName, topicInfo.messageType, topicInfo.md5sum],
      ∀ x : List UInt8, ((stringField t ++ x).drop 4).take (leNat ((stringField t ++ x).take 4)) = t
        ∧ ((stringField t ++ x).drop 4).drop (leNat ((stringField t ++ x).take 4)) = x := by
    intro t ht x
    have hlen := hshort t ht
    obtain ⟨htake, hdrop⟩ := take_length_field (n := t.length) (by omega) (t ++ x)
    unfold stringField
    rw [List.append_assoc, htake, hdrop]
    exact ⟨List.take_left, List.drop_left⟩
  have hname := hfield topicInfo.topicName (by simp)
  have htype := hfield topicInfo.messageType (by simp)
  have hmd5 := hfield topicInfo.md5sum (by simp)
  unfold getTopicInfo at hget
  obtain ⟨⟨id, s₁⟩, hid, hget⟩ := bind_eq_ok.mp hget
  obtain ⟨⟨raw, s₁'⟩, hraw, hval⟩ := bind_eq_ok.mp hid
  obtain ⟨rfl, h₁⟩ := readScalar_inv (reading_ofBuffer _) hraw
  obtain ⟨rfl, rfl⟩ := Prod.mk.inj (Except.ok.inj hval)
  rw [List.drop_left' (length_leBytes 2 _)] at h₁
  simp only [List.flatMap_cons, List.flatMap_nil, List.append_nil, List.append_assoc] at h₁
  obtain ⟨s₂, hget, h₂⟩ := text_inv excessiveTesting_iff h₁ hget
  rw [(hname _).2] at h₂
  obtain ⟨s₃, hget, h₃⟩ := text_inv excessiveTesting_iff h₂ hget
  rw [(htype _).2] at h₃
  obtain ⟨s₄, hget, h₄⟩ := text_inv excessiveTesting_iff h₃ hget
  rw [(hmd5 _).2] at h₄
  obtain ⟨⟨size, s₅⟩, hsize, hinfo⟩ := bind_eq_ok.mp hget
  obtain ⟨⟨raw', s₅'⟩, hraw', hval'⟩ := bind_eq_ok.mp hsize
  obtain ⟨rfl, -⟩ := readScalar_inv h₄ hraw'
  obtain ⟨rfl, -⟩ := Prod.mk.inj (Except.ok.inj hval')
  obtain ⟨rfl, -⟩ := Prod.mk.inj (Prod.mk.inj (Except.ok.inj hinfo)).2
  -- the fields, one by one
  have hid' : UInt16.ofNat (leNat ((leBytes 2 topicInfo.topicId.toNat ++ (List.flatMap stringField
      [topicInfo.topicName, topicInfo.messageType, topicInfo.md5sum]
        ++ (leBytes 4 topicInfo.bufferSize.toUInt32.toNat ++ rest))).take 2))
      = topicInfo.topicId := by
    have hlt : topicInfo.topicId.toNat < 256 ^ 2 := topicInfo.topicId.toNat_lt
    rw [List.take_left' (length_leBytes 2 _), leNat_leBytes hlt]
    exact UInt16.ofNat_toNat
  have hsize' : Int32.ofNat (leNat ((leBytes 4 topicInfo.bufferSize.toUInt32.toNat ++ rest).take 4))
      = topicInfo.bufferSize := by
    have hlt : topicInfo.bufferSize.toUInt32.toNat < 256 ^ 4 := UInt32.toNat_lt _
    rw [List.take_left' (length_leBytes 4 _), leNat_leBytes hlt]
    exact congrArg Int32.ofUInt32 (int32_field topicInfo.bufferSize.toUInt32)
  rw [hid', hsize', (hname _).1, (htype _).1, (hmd5 _).1]

/-! ## Where the reader throws -/

/-- Whether everything was read, and the stream behind it. -/
def readEnding {α : Type} (r : Except StdException (Bool × α × RosStream)) :
    Except StdException (Bool × RosStream) :=
  r >>= fun x => .ok (x.1, x.2.2)

theorem readEnding_bind {α β : Type} (r : Except StdException β)
    (f : β → Except StdException (Bool × α × RosStream)) :
    readEnding (r >>= f) = r >>= fun x => readEnding (f x) := bind_assoc ..

theorem readEnding_field (items : List Item) (field : List UInt8) (s : RosStream) :
    readEnding (readItems items s >>= fun r => .ok (r.1, field :: r.2.1, r.2.2))
      = readEnding (readItems items s) := by
  rw [readEnding_bind]
  rfl

theorem readEnding_number {α β : Type} {n : Nat} (value : List UInt8 → β)
    (read : RosStream → Except StdException (β × RosStream))
    (hread : ∀ s, read s = s.readScalar n >>= fun r => .ok (value r.1, r.2)) (s : RosStream)
    (items : List Item) (next : β × RosStream → Except StdException (Bool × α × RosStream))
    (hnext : ∀ x s', readEnding (next (x, s')) = readEnding (readItems items s')) :
    readEnding (read s >>= next) = readEnding (readItems (.scalar n :: items) s) := by
  rw [hread, readItems, readItem, bind_assoc, bind_assoc, readEnding_bind, readEnding_bind]
  refine bind_congr fun x => ?_
  exact (hnext _ x.2).trans (readEnding_field items x.1 x.2).symm

theorem readEnding_text {α : Type} (s : RosStream) (items : List Item) {refused : α}
    (tail : UInt32 × RosStream → Except StdException (Bool × α × RosStream))
    {next : List UInt8 × RosStream → Except StdException (Bool × α × RosStream)}
    (htail : ∀ len s, tail (len, s)
      = if excessiveTesting len then .ok (false, refused, s) else s.readString len.toNat >>= next)
    (hnext : ∀ text s', readEnding (next (text, s')) = readEnding (readItems items s')) :
    readEnding (s.readUInt32 >>= tail) = readEnding (readItems (.text :: items) s) := by
  rw [readItems, readItem, bind_assoc, readEnding_bind, readEnding_bind]
  refine bind_congr fun x => ?_
  rw [htail]
  dsimp only
  split
  · rfl
  · rw [bind_assoc, readEnding_bind, readEnding_bind]
    refine bind_congr fun y => ?_
    exact (hnext _ y.2).trans (readEnding_field items y.1 y.2).symm

/-- **`get_topic_info` reads the fields of a registration, one behind the other.** -/
theorem getTopicInfo_reads (topicInfo : TopicInfo) (s : RosStream) :
    readEnding (getTopicInfo topicInfo s) = readEnding (readItems registration s) := by
  unfold registration getTopicInfo
  refine readEnding_number (fun raw => UInt16.ofNat (leNat raw)) readUInt16 (fun _ => rfl) s _ _ ?_
  intro id s₁
  refine readEnding_text s₁ _ _ (fun _ _ => rfl) ?_
  intro name s₂
  refine readEnding_text s₂ _ _ (fun _ _ => rfl) ?_
  intro type s₃
  refine readEnding_text s₃ _ _ (fun _ _ => rfl) ?_
  intro md5 s₄
  refine readEnding_number (fun raw => Int32.ofNat (leNat raw)) readInt32 (fun _ => rfl) s₄ [] _ ?_
  intro size s₅
  rfl

theorem getTopicInfo_throws {topicInfo : TopicInfo} {s : RosStream} {e : StdException}
    (h : getTopicInfo topicInfo s = .error e) : readItems registration s = .error e := by
  have hreads := getTopicInfo_reads topicInfo s
  rw [h] at hreads
  cases hitems : readItems registration s with
  | error e' =>
      rw [hitems] at hreads
      obtain rfl : e = e' := Except.error.inj hreads
      rfl
  | ok r =>
      rw [hitems] at hreads
      exact absurd hreads.symm (by simp [readEnding])

theorem readItem_agrees {s : RosStream} {b : List UInt8} (h : s.Reading b) (item : Item) :
    Agrees (scan [item] b) (readItem item s) := by
  cases item with
  | scalar n => exact scalar_agrees h n [] _ fun raw s' rest hs' => ⟨_, s', rfl, hs'⟩
  | text =>
      exact text_agrees excessiveTesting_iff h [] _ (fun _ _ => rfl)
        fun text s' rest hs' => ⟨_, s', rfl, hs'⟩
  | unsupported => exact ⟨_, _, rfl⟩

theorem readItems_cons_inv {item : Item} {items : List Item} {s s' : RosStream}
    {fields : List (List UInt8)} (h : readItems (item :: items) s = .ok (true, fields, s')) :
    ∃ bytes s₁ fields', readItem item s = .ok (true, bytes, s₁)
      ∧ readItems items s₁ = .ok (true, fields', s') := by
  rw [readItems] at h
  obtain ⟨⟨ok, bytes, s₁⟩, hfirst, h⟩ := bind_eq_ok.mp h
  cases ok with
  | false =>
      have hno : (Except.ok (false, [], s₁) : Except StdException (Bool × List (List UInt8) × _))
        = .ok (true, fields, s') := h
      exact absurd (Prod.mk.inj (Except.ok.inj hno)).1 (by simp)
  | true =>
      obtain ⟨⟨ok, fields', s₂⟩, hrest, h⟩ := bind_eq_ok.mp h
      have hyes : (Except.ok (ok, bytes :: fields', s₂) : Except StdException _)
        = .ok (true, fields, s') := h
      obtain ⟨rfl, hpair⟩ := Prod.mk.inj (Except.ok.inj hyes)
      obtain ⟨-, rfl⟩ := Prod.mk.inj hpair
      exact ⟨bytes, s₁, fields', hfirst, hrest⟩

theorem readItem_accepted {item : Item} {s s' : RosStream} {b bytes : List UInt8}
    (h : s.Reading b) (hread : readItem item s = .ok (true, bytes, s')) :
    ∃ rest, scan [item] b = .accepted rest ∧ s'.Reading rest := by
  have hagrees := readItem_agrees h item
  rw [hread] at hagrees
  cases hscan : scan [item] b with
  | accepted rest =>
      rw [hscan] at hagrees
      obtain ⟨x, s₂, heq, hs₂⟩ := hagrees
      obtain ⟨-, rfl⟩ := Prod.mk.inj (Prod.mk.inj (Except.ok.inj heq)).2
      exact ⟨rest, rfl, hs₂⟩
  | rejected =>
      rw [hscan] at hagrees
      obtain ⟨x, s₂, heq⟩ := hagrees
      exact absurd (Prod.mk.inj (Except.ok.inj heq)).1 (by simp)
  | starved =>
      rw [hscan] at hagrees
      obtain ⟨e, heq⟩ := hagrees
      exact absurd heq (by simp)

/-- Reading throws at the first item that throws. -/
theorem readItems_throws {items : List Item} {s : RosStream} {e : StdException} {b : List UInt8}
    (hs : s.Reading b) (h : readItems items s = .error e) :
    ∃ done item later fields s' ahead, items = done ++ item :: later
      ∧ readItems done s = .ok (true, fields, s') ∧ s'.Reading ahead
      ∧ readItem item s' = .error e := by
  induction items generalizing s b with
  | nil => exact absurd h (by simp [readItems])
  | cons item items ih =>
      cases hfirst : readItem item s with
      | error e' =>
          rw [readItems, hfirst] at h
          obtain rfl := Except.error.inj h
          exact ⟨[], item, items, [], s, b, rfl, rfl, hs, hfirst⟩
      | ok r =>
          obtain ⟨ok, bytes, s₁⟩ := r
          rw [readItems, hfirst, ok_bind] at h
          cases ok with
          | false => exact absurd h (by simp [pure, Except.pure])
          | true =>
              obtain ⟨b₁, -, hs₁⟩ := readItem_accepted hs hfirst
              have hrest : readItems items s₁ = .error e := by
                cases hitems : readItems items s₁ with
                | error e' =>
                    have h' : (readItems items s₁ >>= fun r => Except.ok (r.1, bytes :: r.2.1, r.2.2))
                      = .error e := h
                    rw [hitems] at h'
                    exact h'
                | ok r =>
                    have h' : (readItems items s₁ >>= fun r => Except.ok (r.1, bytes :: r.2.1, r.2.2))
                      = .error e := h
                    rw [hitems] at h'
                    exact absurd h' (by simp)
              obtain ⟨done, item', later, fields, s', ahead, rfl, hdone, hahead, hthrow⟩ :=
                ih hs₁ hrest
              refine ⟨item :: done, item', later, bytes :: fields, s', ahead, rfl, ?_, hahead, hthrow⟩
              rw [readItems, hfirst, ok_bind]
              show (readItems done s₁ >>= _) = _
              rw [hdone]
              rfl

theorem scan_cut {b : List UInt8} (h : CutString b) (items : List Item) :
    scan (.text :: items) b = .starved := by
  rw [scan]
  rcases h with hshort | ⟨n, text, hn, htext, rfl⟩
  · rw [if_pos hshort]
  · obtain ⟨htake, hdrop⟩ := take_length_field (n := n) (by omega) text
    have hlen : ¬(leBytes 4 n ++ text).length < 4 := by simp
    have hcast : castInt text.length = text.length := castInt_small (by omega)
    rw [htake, hdrop, if_neg hlen, if_neg (by omega), if_pos (Or.inr (by omega))]

/-- What a text item is read from. -/
theorem text_accepted {b rest : List UInt8} (h : scan [.text] b = .accepted rest) :
    ∃ t, t.length ≤ 400 ∧ b = stringField t ++ rest ∧ ¬Unreadable t rest := by
  rcases string_cases b with ⟨t, rest', ht, rfl⟩ | ⟨n, rest', hlong, hn, rfl⟩ | hcut
  · by_cases hbad : Unreadable t rest'
    · rw [(scan_string ht [] rest').2 hbad] at h
      exact absurd h (by simp)
    · rw [(scan_string ht [] rest').1 hbad, scan] at h
      obtain rfl := Verdict.accepted.inj h
      exact ⟨t, ht, rfl, hbad⟩
  · rw [scan_long hlong hn] at h
    exact absurd h (by simp)
  · rw [scan_cut hcut] at h
    exact absurd h (by simp)

theorem complete_string (t rest : List UInt8) (ht : t.length ≤ 400) :
    Complete .text (stringField t ++ rest) := by
  obtain ⟨htake, hdrop⟩ := take_length_field (n := t.length) (by omega) (t ++ rest)
  unfold stringField
  rw [List.append_assoc]
  refine ⟨by simp, ?_⟩
  rw [htake, hdrop, List.length_append]
  omega

/-- A complete item throws only if it is a string that is not read. -/
theorem complete_thrown {item : Item} {s : RosStream} {b : List UInt8} {e : StdException}
    (h : s.Reading b) (hthrow : readItem item s = .error e) (hcomplete : Complete item b) :
    item = .text ∧ ∃ t rest, t.length ≤ 400 ∧ b = stringField t ++ rest ∧ Unreadable t rest := by
  have hagrees := readItem_agrees h item
  rw [hthrow] at hagrees
  cases item with
  | scalar n =>
      rw [scan, if_pos (show n ≤ b.length from hcomplete)] at hagrees
      obtain ⟨x, s', heq, -⟩ := hagrees
      exact absurd heq (by simp)
  | unsupported =>
      obtain ⟨x, s', heq⟩ := hagrees
      exact absurd heq (by simp)
  | text =>
      refine ⟨rfl, ?_⟩
      rcases string_cases b with ⟨t, rest, ht, rfl⟩ | ⟨n, rest, hlong, hn, rfl⟩ | hcut
      · refine ⟨t, rest, ht, rfl, ?_⟩
        by_contra hgood
        rw [(scan_string ht [] rest).1 hgood] at hagrees
        obtain ⟨x, s', heq, -⟩ := hagrees
        exact absurd heq (by simp)
      · rw [scan_long hlong hn] at hagrees
        obtain ⟨x, s', heq⟩ := hagrees
        exact absurd heq (by simp)
      · obtain ⟨hlen, hwhole⟩ := hcomplete
        rcases hcut with hshort | ⟨n, text, hn, htext, rfl⟩
        · omega
        · obtain ⟨htake, hdrop⟩ := take_length_field (n := n) (by omega) text
          rw [htake, hdrop] at hwhole
          omega

/-- Strings that were read lie one behind the other. -/
theorem texts_read {k : Nat} {s s' : RosStream} {b : List UInt8} {fields : List (List UInt8)}
    (h : s.Reading b) (hread : readItems (List.replicate k .text) s = .ok (true, fields, s')) :
    ∃ texts ahead, texts.length = k ∧ AllShort texts ∧ b = texts.flatMap stringField ++ ahead
      ∧ s'.Reading ahead := by
  induction k generalizing s b fields with
  | zero =>
      obtain ⟨-, rfl⟩ := Prod.mk.inj (Prod.mk.inj (Except.ok.inj hread)).2
      exact ⟨[], b, rfl, by intro t ht; exact absurd ht (by simp), rfl, h⟩
  | succ k ih =>
      obtain ⟨bytes, s₁, fields', hfirst, hrest⟩ := readItems_cons_inv hread
      obtain ⟨rest, hscan, h₁⟩ := readItem_accepted h hfirst
      obtain ⟨t, ht, rfl, -⟩ := text_accepted hscan
      obtain ⟨texts, ahead, rfl, hshort, rfl, hahead⟩ := ih h₁ hrest
      refine ⟨t :: texts, ahead, rfl, ?_, ?_, hahead⟩
      · intro t' ht'
        rcases List.mem_cons.mp ht' with rfl | ht'
        · exact ht
        · exact hshort t' ht'
      · rw [List.flatMap_cons, List.append_assoc]

theorem registration_split {done later : List Item} {item : Item}
    (h : registration = done ++ item :: later) :
    (done = [] ∧ item = .scalar 2)
      ∨ (∃ k < 3, done = .scalar 2 :: List.replicate k .text ∧ item = .text)
      ∨ item = .scalar 4 := by
  unfold registration at h
  rcases done with _ | ⟨a, _ | ⟨b, _ | ⟨c, _ | ⟨d, _ | ⟨e, done⟩⟩⟩⟩⟩ <;>
    simp only [List.nil_append, List.cons_append, List.cons.injEq] at h
  · exact Or.inl ⟨rfl, h.1.symm⟩
  · obtain ⟨rfl, rfl, -⟩ := h
    exact Or.inr (Or.inl ⟨0, by omega, rfl, rfl⟩)
  · obtain ⟨rfl, rfl, rfl, -⟩ := h
    exact Or.inr (Or.inl ⟨1, by omega, rfl, rfl⟩)
  · obtain ⟨rfl, rfl, rfl, rfl, -⟩ := h
    exact Or.inr (Or.inl ⟨2, by omega, rfl, rfl⟩)
  · exact Or.inr (Or.inr h.2.2.2.2.1.symm)
  · exact absurd h.2.2.2.2.2 (by simp)

theorem id_read {s s' : RosStream} {b bytes : List UInt8} (h : s.Reading b)
    (hread : readItem (.scalar 2) s = .ok (true, bytes, s')) :
    ∃ (id : UInt16) (rest : List UInt8), b = leBytes 2 id.toNat ++ rest ∧ s'.Reading rest := by
  obtain ⟨rest, hscan, h'⟩ := readItem_accepted h hread
  rw [scan] at hscan
  split at hscan
  · rename_i hlen
    rw [scan] at hscan
    obtain rfl := Verdict.accepted.inj hscan
    obtain ⟨id, hb⟩ := id_field hlen
    exact ⟨id, _, hb, h'⟩
  · exact absurd hscan (by simp)

/-- The field at which reading throws is complete only if a string is met that is not read. -/
theorem ThrowsAt.unreadable {b ahead : List UInt8} {item : Item} {e : StdException}
    (h : ThrowsAt b item ahead e) (hcomplete : Complete item ahead) : MeetsUnreadable b := by
  obtain ⟨done, later, fields, s, hsplit, hdone, hahead, hthrow⟩ := h
  obtain ⟨rfl, t, rest, ht, rfl, hbad⟩ := complete_thrown hahead hthrow hcomplete
  rcases registration_split hsplit with ⟨-, hitem⟩ | ⟨k, hk, rfl, -⟩ | hitem
  · exact absurd hitem (by simp)
  · obtain ⟨bytes, s₁, fields', hid, htexts⟩ := readItems_cons_inv hdone
    obtain ⟨id, rest₁, rfl, h₁⟩ := id_read (reading_ofBuffer b) hid
    obtain ⟨texts, ahead, rfl, hshort, rfl, h₂⟩ := texts_read h₁ htexts
    obtain rfl : _ = ahead := hahead.remaining.symm.trans h₂.remaining
    exact ⟨id, texts, t, rest, hk, hshort, ht, hbad, rfl⟩
  · exact absurd hitem (by simp)

/-- Reading strings in a row does not get beyond one that is not read, and that one is complete. -/
theorem unreadable_complete {texts : List (List UInt8)} (hshort : AllShort texts)
    {t rest : List UInt8} (ht : t.length ≤ 400) (hbad : Unreadable t rest) {k : Nat}
    (hk : texts.length < k) {items done later : List Item} {item : Item}
    (hsplit : List.replicate k .text ++ items = done ++ item :: later) {s s' : RosStream}
    (h : s.Reading (texts.flatMap stringField ++ (stringField t ++ rest)))
    {fields : List (List UInt8)} (hdone : readItems done s = .ok (true, fields, s'))
    {ahead : List UInt8} (hahead : s'.Reading ahead) : Complete item ahead := by
  obtain ⟨k, rfl⟩ : ∃ j, k = j + 1 := ⟨k - 1, by omega⟩
  rw [List.replicate_succ, List.cons_append] at hsplit
  induction texts generalizing k done s fields with
  | nil =>
      cases done with
      | nil =>
          obtain ⟨rfl, -⟩ := List.cons.inj hsplit
          obtain ⟨-, rfl⟩ := Prod.mk.inj (Prod.mk.inj (Except.ok.inj hdone)).2
          obtain rfl := hahead.remaining.symm.trans h.remaining
          exact complete_string t rest ht
      | cons first done =>
          obtain ⟨rfl, -⟩ := List.cons.inj hsplit
          obtain ⟨bytes, s₁, fields', hfirst, -⟩ := readItems_cons_inv hdone
          obtain ⟨rest', hscan, -⟩ := readItem_accepted h hfirst
          rw [List.flatMap_nil, List.nil_append, (scan_string ht [] rest).2 hbad] at hscan
          exact absurd hscan (by simp)
  | cons t' texts ih =>
      have ht' := hshort t' (by simp)
      rw [List.flatMap_cons, List.append_assoc] at h
      cases done with
      | nil =>
          obtain ⟨rfl, -⟩ := List.cons.inj hsplit
          obtain ⟨-, rfl⟩ := Prod.mk.inj (Prod.mk.inj (Except.ok.inj hdone)).2
          obtain rfl := hahead.remaining.symm.trans h.remaining
          exact complete_string t' _ ht'
      | cons first done =>
          obtain ⟨rfl, htail⟩ := List.cons.inj hsplit
          obtain ⟨bytes, s₁, fields', hfirst, hrest⟩ := readItems_cons_inv hdone
          obtain ⟨rest', hscan, h₁⟩ := readItem_accepted h hfirst
          have hgood : scan [.text] (stringField t' ++ (texts.flatMap stringField
              ++ (stringField t ++ rest)))
              = .accepted (texts.flatMap stringField ++ (stringField t ++ rest)) := by
            by_cases hbad' : Unreadable t' (texts.flatMap stringField ++ (stringField t ++ rest))
            · rw [(scan_string ht' [] _).2 hbad'] at hscan
              exact absurd hscan (by simp)
            · exact (scan_string ht' [] _).1 hbad'
          obtain rfl := Verdict.accepted.inj (hgood.symm.trans hscan)
          rw [List.length_cons] at hk
          obtain ⟨k, rfl⟩ : ∃ j, k = j + 1 := ⟨k - 1, by omega⟩
          rw [List.replicate_succ, List.cons_append] at htail
          exact ih (fun x hx => hshort x (by simp [hx])) h₁ hrest k (by omega) htail

theorem ThrowsAt.complete {b ahead : List UInt8} {item : Item} {e : StdException}
    (h : ThrowsAt b item ahead e) (hbad : MeetsUnreadable b) : Complete item ahead := by
  obtain ⟨id, texts, t, rest, hlen, hshort, ht, hunreadable, rfl⟩ := hbad
  obtain ⟨done, later, fields, s, hsplit, hdone, hahead, -⟩ := h
  have hid : 2 ≤ (leBytes 2 id.toNat ++ (texts.flatMap stringField
      ++ (stringField t ++ rest))).length := by simp
  unfold registration at hsplit
  cases done with
  | nil =>
      obtain ⟨rfl, -⟩ := List.cons.inj hsplit
      obtain ⟨-, rfl⟩ := Prod.mk.inj (Prod.mk.inj (Except.ok.inj hdone)).2
      obtain rfl := hahead.remaining.symm.trans (reading_ofBuffer _).remaining
      exact hid
  | cons first done =>
      obtain ⟨rfl, htail⟩ := List.cons.inj hsplit
      obtain ⟨bytes, s₁, fields', hfirst, hrest⟩ := readItems_cons_inv hdone
      obtain ⟨rest', hscan, h₁⟩ := readItem_accepted (reading_ofBuffer _) hfirst
      rw [scan, if_pos hid, scan, List.drop_left' (length_leBytes 2 _)] at hscan
      obtain rfl := Verdict.accepted.inj hscan
      have hstrings : List.replicate 3 .text ++ [Item.scalar 4] = done ++ item :: later := htail
      exact unreadable_complete hshort ht hunreadable hlen hstrings h₁ hrest hahead

/--
**`get_topic_info` parses exactly the registration format, unless it comes to a string that
is there and that it does not read.** There it throws, at a complete field.
-/
theorem parses_exactly_iff (b : List UInt8) : ParsesExactly b ↔ ¬MeetsUnreadable b := by
  have hagrees := getTopicInfo_agrees {} (reading_ofBuffer b)
  constructor
  · intro h hbad
    rw [hbad.scan] at hagrees
    obtain ⟨e, hthrown⟩ := hagrees
    obtain ⟨item, ahead, hat, hincomplete⟩ := h.thrown e hthrown
    exact hincomplete (hat.complete hbad)
  · intro hgood
    refine ⟨?_, ?_, ?_⟩
    · intro topicInfo rest hbegins
      rw [hbegins.scan hgood] at hagrees
      obtain ⟨info, s, hget, hrest⟩ := hagrees
      obtain rfl := getTopicInfo_fields hbegins hget
      exact ⟨s, hget, hrest⟩
    · intro hlong
      rw [hlong.scan hgood] at hagrees
      exact hagrees
    · intro e hthrown
      obtain ⟨done, item, later, fields, s, ahead, hsplit, hdone, hahead, hthrow⟩ :=
        readItems_throws (reading_ofBuffer b) (getTopicInfo_throws hthrown)
      have hat : ThrowsAt b item ahead e := ⟨done, later, fields, s, hsplit, hdone, hahead, hthrow⟩
      exact ⟨item, ahead, hat, fun hcomplete => hgood (hat.unreadable hcomplete)⟩

/-- A whole registration whose md5 sum is empty: `get_topic_info` throws. -/
theorem empty_md5_thrown : ¬ParsesExactly
    [125, 0, 1, 0, 0, 0, 0x74, 3, 0, 0, 0, 0x70, 0x2F, 0x42, 0, 0, 0, 0, 0, 0, 0, 0] := by
  intro h
  obtain ⟨s, hget, -⟩ := h.complete ⟨125, [0x74], [0x70, 0x2F, 0x42], [], 0⟩ [] ⟨by
    intro t ht
    simp only [List.mem_cons, List.not_mem_nil, or_false] at ht
    rcases ht with rfl | rfl | rfl <;> simp, rfl⟩
  exact absurd hget (by
    intro hc
    have hthrown : getTopicInfo {} (ofBuffer [125, 0, 1, 0, 0, 0, 0x74, 3, 0, 0, 0, 0x70, 0x2F,
      0x42, 0, 0, 0, 0, 0, 0, 0, 0]) = .error undefinedString := rfl
    rw [hthrown] at hc
    exact absurd hc (by simp))

end RosserialServer
