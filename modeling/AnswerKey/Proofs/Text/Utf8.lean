import Mathlib.Data.List.Basic
import AnswerKey.Text.Utf8

namespace AnswerKey.Text

def utf8 (text : List Char) : List UInt8 := text.flatMap String.utf8EncodeChar

/-- The character has one byte, and the replacement character or a number that is none is not mistaken for it. -/
def IsAscii (c : Char) : Prop := 0 < c.toNat ∧ c.toNat < 0x80

instance : DecidablePred IsAscii := fun _ ↦ inferInstanceAs (Decidable (_ ∧ _))

def asciiByte (c : Char) : UInt8 := .ofNat c.toNat

section

variable {c : Char} {s : List Char}

theorem toNat_asciiByte (hc : IsAscii c) : (asciiByte c).toNat = c.toNat := by
  rw [asciiByte, UInt8.toNat_ofNat']
  exact Nat.mod_eq_of_lt (by have := hc.2; omega)

theorem utf8EncodeChar_ascii (hc : IsAscii c) : String.utf8EncodeChar c = [asciiByte c] :=
  if_pos (Nat.le_of_lt_succ hc.2)

theorem utf8_cons_ascii (hc : IsAscii c) (s : List Char) : utf8 (c :: s) = asciiByte c :: utf8 s := by
  rw [utf8, List.flatMap_cons, utf8EncodeChar_ascii hc]
  rfl

end

/-- Every character that the bytes still due can complete is numbered 128 or above. -/
def Pending.Sound (p : Pending) : Prop :=
  0x80 ≤ p.low ∧ (2 ≤ p.bits ∨ 2 ≤ p.due ∧ (1 ≤ p.bits ∨ 0x82 ≤ p.low))

namespace Decoding

variable {d : Decoding} {p : Pending} {read older : List Char} {b : Nat} {c : Char} {bytes : List UInt8}

def Sound (d : Decoding) : Prop := ∀ p, d.pending = some p → p.Sound

def run (d : Decoding) (bytes : List UInt8) : Decoding := bytes.foldl (fun d b ↦ d.feed b.toNat) d

def after (d : Decoding) (older : List Char) : Decoding := ⟨d.read ++ older, d.pending⟩

theorem run_append (d : Decoding) (front rest : List UInt8) : d.run (front ++ rest) = (d.run front).run rest :=
  List.foldl_append

theorem text_after (d : Decoding) (older : List Char) : (d.after older).text = older.reverse ++ d.text := by
  unfold after text
  split <;> simp

theorem begin_after (read older : List Char) (b : Nat) : begin (read ++ older) b = (begin read b).after older := by
  unfold begin after
  cases lead b <;> rfl

theorem feed_after (d : Decoding) (older : List Char) (b : Nat) : (d.after older).feed b = (d.feed b).after older := by
  obtain ⟨read, _ | p⟩ := d
  · exact begin_after read older b
  · simp only [feed, after]
    split
    · split <;> rfl
    · exact begin_after (replacementChar :: read) older b

theorem run_after (d : Decoding) (older : List Char) (bytes : List UInt8) :
    (d.after older).run bytes = (d.run bytes).after older := by
  induction bytes generalizing d with
  | nil => rfl
  | cons b bytes ih => exact (congrArg (run · bytes) (feed_after d older b.toNat)).trans (ih _)

theorem lead_sound (h : lead b = .longer p) : p.Sound := by
  unfold lead at h
  repeat' split at h
  all_goals simp only [reduceCtorEq, Lead.longer.injEq] at h
  all_goals
    subst h
    simp only [Pending.Sound]
    omega

theorem begin_sound (read : List Char) (b : Nat) : (begin read b).Sound := by
  unfold begin
  cases h : lead b with
  | single c => exact fun _ hp ↦ nomatch hp
  | longer p =>
    intro p' hp
    obtain rfl : p = p' := Option.some.inj hp
    exact lead_sound h
  | invalid => exact fun _ hp ↦ nomatch hp

theorem Sound.feed (hd : d.Sound) (b : Nat) : (d.feed b).Sound := by
  obtain ⟨read, _ | p⟩ := d
  · exact begin_sound read b
  have hp : p.Sound := hd p rfl
  simp only [Decoding.feed]
  split
  · split
    · exact fun _ hp ↦ nomatch hp
    · intro p' hp'
      rw [← Option.some.inj hp']
      simp only [Pending.Sound] at hp ⊢
      omega
  · exact begin_sound _ b

theorem Sound.run (hd : d.Sound) (bytes : List UInt8) : (d.run bytes).Sound := by
  induction bytes generalizing d with
  | nil => exact hd
  | cons b bytes ih => exact ih (hd.feed b.toNat)

theorem begin_of_lt (read : List Char) (h : b < 0x80) : begin read b = ⟨Char.ofNat b :: read, none⟩ := by
  rw [begin, lead, if_pos h]

theorem Sound.feed_of_lt (hd : d.Sound) (h : b < 0x80) : d.feed b = ⟨Char.ofNat b :: d.text.reverse, none⟩ := by
  obtain ⟨read, _ | p⟩ := d
  · rw [Decoding.feed, begin_of_lt _ h]
    simp [text]
  · have hlow := (hd p rfl).1
    rw [Decoding.feed]
    simp only [text, Option.isSome_some, if_true, List.reverse_reverse]
    rw [if_neg (by omega), begin_of_lt _ h]

theorem feed_last (h : p.low ≤ b ∧ b ≤ p.high) (hdue : p.due ≤ 1) :
    feed ⟨read, some p⟩ b = ⟨Char.ofNat (p.bits * 64 + (b - 0x80)) :: read, none⟩ := by
  simp only [feed, if_pos h, if_pos hdue]

theorem feed_more (h : p.low ≤ b ∧ b ≤ p.high) (hdue : ¬ p.due ≤ 1) :
    feed ⟨read, some p⟩ b = ⟨read, some ⟨p.bits * 64 + (b - 0x80), p.due - 1, 0x80, 0xBF⟩⟩ := by
  simp only [feed, if_pos h, if_neg hdue]

theorem lead_two (h : 0xC2 ≤ b) (h' : b < 0xE0) : lead b = .longer ⟨b - 0xC0, 1, 0x80, 0xBF⟩ := by
  rw [lead, if_neg (by omega), if_neg (by omega), if_pos h']

theorem lead_three (h : 0xE0 ≤ b) (h' : b < 0xF0) : lead b =
    .longer ⟨b - 0xE0, 2, if b = 0xE0 then 0xA0 else 0x80, if b = 0xED then 0x9F else 0xBF⟩ := by
  rw [lead, if_neg (by omega), if_neg (by omega), if_neg (by omega), if_pos h']

theorem lead_four (h : 0xF0 ≤ b) (h' : b < 0xF5) : lead b =
    .longer ⟨b - 0xF0, 3, if b = 0xF0 then 0x90 else 0x80, if b = 0xF4 then 0x8F else 0xBF⟩ := by
  rw [lead, if_neg (by omega), if_neg (by omega), if_neg (by omega), if_neg (by omega), if_pos h']

theorem begin_of_longer (read : List Char) (h : lead b = .longer p) : begin read b = ⟨read, some p⟩ := by
  rw [begin, h]

theorem feed_none (read : List Char) (b : Nat) : feed ⟨read, none⟩ b = begin read b := rfl

theorem run_cons (d : Decoding) (b : UInt8) (bytes : List UInt8) :
    d.run (b :: bytes) = (d.feed b.toNat).run bytes := rfl

section

variable {v : Nat}

theorem run_two (read : List Char) (h : 0x80 ≤ v) (h' : v ≤ 0x7FF) :
    run ⟨read, none⟩ [.ofNat (v / 64 % 32 + 192), .ofNat (v % 64 + 128)] = ⟨Char.ofNat v :: read, none⟩ := by
  simp only [run, List.foldl_cons, List.foldl_nil, UInt8.toNat_ofNat']
  rw [feed_none, begin_of_longer _ (lead_two (by omega) (by omega)), feed_last (by dsimp only; omega) (by simp)]
  exact congrArg (fun n ↦ Decoding.mk (Char.ofNat n :: read) none) (by dsimp only; omega)

theorem run_three (read : List Char) (h : 0x800 ≤ v) (h' : v < 0xD800 ∨ 0xDFFF < v) (h'' : v ≤ 0xFFFF) :
    run ⟨read, none⟩ [.ofNat (v / 4096 % 16 + 224), .ofNat (v / 64 % 64 + 128), .ofNat (v % 64 + 128)] =
      ⟨Char.ofNat v :: read, none⟩ := by
  simp only [run, List.foldl_cons, List.foldl_nil, UInt8.toNat_ofNat']
  rw [feed_none, begin_of_longer _ (lead_three (by omega) (by omega)),
    feed_more (by constructor <;> dsimp only <;> split <;> omega) (by simp),
    feed_last (by dsimp only; omega) (by simp)]
  exact congrArg (fun n ↦ Decoding.mk (Char.ofNat n :: read) none) (by dsimp only; omega)

theorem run_four (read : List Char) (h : 0x10000 ≤ v) (h' : v < 0x110000) :
    run ⟨read, none⟩ [.ofNat (v / 262144 % 8 + 240), .ofNat (v / 4096 % 64 + 128), .ofNat (v / 64 % 64 + 128),
      .ofNat (v % 64 + 128)] = ⟨Char.ofNat v :: read, none⟩ := by
  simp only [run, List.foldl_cons, List.foldl_nil, UInt8.toNat_ofNat']
  rw [feed_none, begin_of_longer _ (lead_four (by omega) (by omega)),
    feed_more (by constructor <;> dsimp only <;> split <;> omega) (by simp),
    feed_more (by dsimp only; omega) (by simp), feed_last (by dsimp only; omega) (by simp)]
  exact congrArg (fun n ↦ Decoding.mk (Char.ofNat n :: read) none) (by dsimp only; omega)

end

theorem run_utf8EncodeChar (read : List Char) (c : Char) :
    run ⟨read, none⟩ (String.utf8EncodeChar c) = ⟨c :: read, none⟩ := by
  have hvalid : c.val.toNat < 0xD800 ∨ 0xDFFF < c.val.toNat ∧ c.val.toNat < 0x110000 := c.valid
  have hc : Char.ofNat c.val.toNat = c := Char.ofNat_toNat c
  simp only [String.utf8EncodeChar]
  generalize c.val.toNat = v at hvalid hc
  subst hc
  -- one case for each number of bytes
  split
  · rw [run_cons, feed_none, UInt8.toNat_ofNat', begin_of_lt _ (by omega), Nat.mod_eq_of_lt (by omega)]
    rfl
  split
  · exact run_two read (by omega) ‹_›
  split
  · exact run_three read (by omega) (by omega) ‹_›
  · exact run_four read (by omega) (by omega)

theorem text_begin_ne_nil (read : List Char) (b : Nat) : (begin read b).text ≠ [] := by
  unfold begin
  cases lead b <;> simp [text]

theorem text_feed_ne_nil (d : Decoding) (b : Nat) : (d.feed b).text ≠ [] := by
  obtain ⟨read, _ | p⟩ := d
  · exact text_begin_ne_nil read b
  · simp only [feed]
    split
    · split <;> simp [text]
    · exact text_begin_ne_nil _ b

def Foreign (d : Decoding) : Prop := ∀ c ∈ d.read, ¬ IsAscii c

theorem not_isAscii_ofNat {n : Nat} (h : 0x80 ≤ n) : ¬ IsAscii (Char.ofNat n) := by
  by_cases hn : n.isValidChar
  · have hofNat : Char.ofNat n = .ofNatAux n hn := dif_pos hn
    rw [hofNat]
    exact fun hc ↦ absurd hc.2 (Nat.not_lt.mpr h)
  · have hofNat : Char.ofNat n = Char.ofNat 0 := dif_neg hn
    rw [hofNat]
    decide

theorem not_isAscii_replacementChar : ¬ IsAscii replacementChar := by decide

theorem Foreign.cons {p : Option Pending} (h : Foreign ⟨read, p⟩) (hc : ¬ IsAscii c) : Foreign ⟨c :: read, none⟩ :=
  List.forall_mem_cons.mpr ⟨hc, h⟩

theorem Foreign.begin (h : Foreign ⟨read, none⟩) (hb : 0x80 ≤ b) : (begin read b).Foreign := by
  unfold Decoding.begin
  cases hlead : lead b with
  | single c =>
    have : ¬ b < 0x80 := by omega
    simp only [lead, if_neg this] at hlead
    repeat' split at hlead
    all_goals cases hlead
  | longer p => exact h
  | invalid => exact h.cons not_isAscii_replacementChar

theorem Foreign.feed (h : d.Foreign) (hd : d.Sound) (hb : 0x80 ≤ b) : (d.feed b).Foreign := by
  obtain ⟨read, _ | p⟩ := d
  · exact h.begin hb
  have hp : p.Sound := hd p rfl
  simp only [Decoding.feed]
  split
  · split
    · have hbits : 0x80 ≤ p.bits * 64 + (b - 0x80) := by
        simp only [Pending.Sound] at hp
        omega
      exact Foreign.cons h (not_isAscii_ofNat hbits)
    · exact fun c hc ↦ h c hc
  · exact (Foreign.cons h not_isAscii_replacementChar).begin hb

theorem Foreign.run (h : d.Foreign) (hd : d.Sound) (hb : ∀ b ∈ bytes, 0x80 ≤ b.toNat) : (d.run bytes).Foreign := by
  induction bytes generalizing d with
  | nil => exact h
  | cons b bytes ih =>
    rw [List.forall_mem_cons] at hb
    exact ih (h.feed hd hb.1) (hd.feed b.toNat) hb.2

theorem Foreign.not_isAscii_of_mem_text (h : d.Foreign) : ∀ c ∈ d.text, ¬ IsAscii c := by
  intro c hc
  rw [text, List.mem_reverse] at hc
  split at hc
  · exact Foreign.cons h not_isAscii_replacementChar c hc
  · exact h c hc

end Decoding

section

variable {bytes front rest : List UInt8} {s t u v : List Char} {c : Char} {b : UInt8}

theorem decode_eq_run (bytes : List UInt8) : decode bytes = (Decoding.run ⟨[], none⟩ bytes).text := rfl

theorem sound_run (bytes : List UInt8) : (Decoding.run ⟨[], none⟩ bytes).Sound :=
  Decoding.Sound.run (fun p hp ↦ by cases hp) bytes

theorem decode_append_of_run (h : Decoding.run ⟨[], none⟩ front = ⟨s, none⟩) (rest : List UInt8) :
    decode (front ++ rest) = s.reverse ++ decode rest := by
  have hs : (⟨s, none⟩ : Decoding) = Decoding.after ⟨[], none⟩ s := rfl
  rw [decode_eq_run, Decoding.run_append, h, hs, Decoding.run_after, Decoding.text_after, decode_eq_run]

theorem decode_append_cons (front rest : List UInt8) (hb : b.toNat < 0x80) :
    decode (front ++ b :: rest) = decode front ++ Char.ofNat b.toNat :: decode rest := by
  have hrun : Decoding.run ⟨[], none⟩ (front ++ [b]) = ⟨Char.ofNat b.toNat :: (decode front).reverse, none⟩ := by
    rw [Decoding.run_append]
    exact (sound_run front).feed_of_lt hb
  rw [List.append_cons, decode_append_of_run hrun, List.reverse_cons, List.reverse_reverse, List.append_assoc]
  rfl

theorem decode_utf8_append (text : List Char) (rest : List UInt8) :
    decode (utf8 text ++ rest) = text ++ decode rest := by
  induction text with
  | nil => rfl
  | cons c text ih =>
    rw [utf8, List.flatMap_cons, List.append_assoc, decode_append_of_run (Decoding.run_utf8EncodeChar [] c)]
    exact congrArg (c :: ·) ih

theorem decode_utf8 (text : List Char) : decode (utf8 text) = text := by
  have h := decode_utf8_append text []
  rwa [List.append_nil, show decode [] = [] from rfl, List.append_nil] at h

theorem ofNat_asciiByte (hc : IsAscii c) : Char.ofNat (asciiByte c).toNat = c := by
  rw [toNat_asciiByte hc]
  exact Char.ofNat_toNat c

theorem decode_append_utf8_cons (front : List UInt8) (hc : IsAscii c) (text : List Char) :
    decode (front ++ utf8 (c :: text)) = decode front ++ c :: text := by
  have hb : (asciiByte c).toNat < 0x80 := by rw [toNat_asciiByte hc]; exact hc.2
  rw [utf8_cons_ascii hc, decode_append_cons _ _ hb, ofNat_asciiByte hc, decode_utf8]

theorem decode_ne_nil (h : bytes ≠ []) : decode bytes ≠ [] := by
  obtain ⟨front, b, rfl⟩ := List.eq_nil_or_concat bytes |>.resolve_left h
  rw [decode_eq_run, List.concat_eq_append, Decoding.run_append]
  exact Decoding.text_feed_ne_nil _ _

theorem not_isAscii_of_mem_decode (h : ∀ b ∈ bytes, 0x80 ≤ b.toNat) : ∀ c ∈ decode bytes, ¬ IsAscii c := by
  have hstart : Decoding.Foreign ⟨[], none⟩ := List.forall_mem_nil _
  exact (hstart.run (fun p hp ↦ by cases hp) h).not_isAscii_of_mem_text

theorem asciiByte_ofNat (h : b.toNat < 0x80) : asciiByte (Char.ofNat b.toNat) = b := by
  have hvalid : b.toNat.isValidChar := .inl (by omega)
  rw [asciiByte, Char.ofNat, dif_pos hvalid]
  exact UInt8.ofNat_toNat

theorem eq_or_of_append_cons_eq {α : Type} {s t u v : List α} {a c : α} (h : s ++ a :: t = u ++ c :: v) :
    (s = u ∧ a = c ∧ t = v) ∨ (∃ m, u = s ++ a :: m ∧ t = m ++ c :: v) ∨ c ∈ s := by
  rcases List.append_eq_append_iff.mp h with ⟨m, hu, hm⟩ | ⟨m, hs, hm⟩
  · cases m with
    | nil => exact .inl ⟨by simp [hu], List.cons.inj hm⟩
    | cons b m =>
      obtain ⟨rfl, ht⟩ := List.cons.inj hm
      exact .inr (.inl ⟨m, hu, ht⟩)
  · cases m with
    | nil =>
      obtain ⟨hc, hv⟩ := List.cons.inj hm
      exact .inl ⟨by simp [hs], hc.symm, hv.symm⟩
    | cons b m =>
      obtain ⟨rfl, -⟩ := List.cons.inj hm
      exact .inr (.inr (by simp [hs]))

/-- Where an ASCII character was read its byte stood, between what was read before it and after it. -/
theorem exists_of_decode_foreign_append (front : List UInt8) (hc : IsAscii c) (hfront : ∀ b ∈ front, 0x80 ≤ b.toNat)
    (h : decode (front ++ bytes) = u ++ c :: v) :
    ∃ front' rest, front ++ bytes = front' ++ asciiByte c :: rest ∧ decode front' = u ∧ decode rest = v := by
  have hforeign := not_isAscii_of_mem_decode hfront
  -- `front` holds the bytes from 128 on since the last one below 128: only together with the next byte can they be read
  induction bytes generalizing front u with
  | nil =>
    rw [List.append_nil] at h
    exact absurd hc (hforeign c (by simp [h]))
  | cons b bytes ih =>
    by_cases hb : b.toNat < 0x80
    · rw [decode_append_cons _ _ hb] at h
      rcases eq_or_of_append_cons_eq h with ⟨hu, hcb, hv⟩ | ⟨m, hu, hm⟩ | hmem
      · exact ⟨front, bytes, by rw [← hcb, asciiByte_ofNat hb], hu, hv⟩
      · obtain ⟨front', rest, hsplit, hm, hv⟩ := ih [] (List.forall_mem_nil _) hm (List.forall_mem_nil _)
        refine ⟨front ++ b :: front', rest, ?_, ?_, hv⟩
        · rw [List.append_assoc, List.cons_append]
          exact congrArg (front ++ b :: ·) hsplit
        · rw [decode_append_cons _ _ hb, hm, hu]
      · exact absurd hc (hforeign c hmem)
    · have hcat : ∀ b' ∈ front ++ [b], 0x80 ≤ b'.toNat := by
        simpa [or_imp, forall_and] using ⟨hfront, Nat.le_of_not_lt hb⟩
      rw [List.append_cons] at h ⊢
      exact ih (front ++ [b]) hcat h (not_isAscii_of_mem_decode hcat)

theorem exists_of_decode_eq (hc : IsAscii c) (h : decode bytes = u ++ c :: v) :
    ∃ front rest, bytes = front ++ asciiByte c :: rest ∧ decode front = u ∧ decode rest = v :=
  exists_of_decode_foreign_append [] hc (List.forall_mem_nil _) h

theorem exists_of_decode_eq_append (hs : ∀ c ∈ s, IsAscii c) (h : decode bytes = s ++ v) :
    ∃ rest, bytes = utf8 s ++ rest ∧ decode rest = v := by
  induction s generalizing bytes with
  | nil => exact ⟨bytes, rfl, h⟩
  | cons c s ih =>
    rw [List.forall_mem_cons] at hs
    obtain ⟨front, rest, rfl, hfront, hrest⟩ := exists_of_decode_eq (u := []) hs.1 h
    obtain rfl : front = [] := by
      by_contra hne
      exact decode_ne_nil hne hfront
    obtain ⟨rest', rfl, hv⟩ := ih hs.2 hrest
    exact ⟨rest', by rw [utf8_cons_ascii hs.1]; rfl, hv⟩

theorem exists_of_decode_append (hs : ∀ c ∈ s, IsAscii c) (hne : s ≠ []) (h : decode bytes = u ++ (s ++ v)) :
    ∃ front rest, bytes = front ++ (utf8 s ++ rest) ∧ decode front = u ∧ decode rest = v := by
  obtain ⟨c, s, rfl⟩ := List.exists_cons_of_ne_nil hne
  rw [List.forall_mem_cons] at hs
  obtain ⟨front, rest, rfl, hfront, hrest⟩ := exists_of_decode_eq hs.1 h
  obtain ⟨rest', rfl, hv⟩ := exists_of_decode_eq_append hs.2 hrest
  exact ⟨front, rest', by rw [utf8_cons_ascii hs.1]; rfl, hfront, hv⟩

theorem utf8_isInfix (hs : ∀ c ∈ s, IsAscii c) (h : s <:+: decode bytes) : utf8 s <:+: bytes := by
  by_cases hne : s = []
  · rw [hne]
    exact List.nil_infix
  · obtain ⟨u, v, h⟩ := h
    rw [List.append_assoc] at h
    obtain ⟨front, rest, rfl, -, -⟩ := exists_of_decode_append hs hne h.symm
    exact ⟨front, rest, List.append_assoc _ _ _⟩

theorem isInfix_decode_iff (hs : ∀ c ∈ s, IsAscii c) : s <:+: decode bytes ↔ utf8 s <:+: bytes := by
  refine ⟨utf8_isInfix hs, ?_⟩
  rintro ⟨front, rest, rfl⟩
  cases s with
  | nil => exact List.nil_infix
  | cons c s =>
    have hc := (List.forall_mem_cons.mp hs).1
    have hb : (asciiByte c).toNat < 0x80 := by rw [toNat_asciiByte hc]; exact hc.2
    rw [utf8_cons_ascii hc, List.append_assoc, List.cons_append, decode_append_cons _ _ hb, ofNat_asciiByte hc,
      decode_utf8_append]
    exact ⟨decode front, decode rest, by simp⟩

end

end AnswerKey.Text
