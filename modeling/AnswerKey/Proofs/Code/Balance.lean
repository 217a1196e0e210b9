import AnswerKey.Proofs.Code.Positions

namespace AnswerKey.Code

open Text

/-- How a scan of bytes can break down. -/
inductive Breakdown where
  | negativeDepth
  | badPosition
deriving DecidableEq

/-- The position of the byte at which the last open parenthesis is closed, if there is one. -/
def closingByte (mode : Mode) (depth position : Nat) : List UInt8 → Except Breakdown (Option Nat)
  | [] => .ok none
  | b :: bytes =>
    if mode = .code ∧ byteChar b = ')' ∧ depth = 0 then .error .negativeDepth
    else if mode = .code ∧ byteChar b = ')' ∧ depth = 1 then .ok (some position)
    else closingByte (mode.next (byteChar b)) (parenDepth mode depth (byteChar b)) (position + 1) bytes

def takeBytes? : Nat → List Char → Option (List Char)
  | 0, _ => some []
  | _ + 1, [] => none
  | n + 1, c :: text => if c.utf8Size ≤ n + 1 then (takeBytes? (n + 1 - c.utf8Size) text).map (c :: ·) else none

def slice (text : List Char) (start stop : Nat) : Except Breakdown (List Char) :=
  match fromByte? start text with
  | none => .error .badPosition
  | some rest =>
    if stop < start then .error .badPosition
    else (takeBytes? (stop - start) rest).elim (.error .badPosition) .ok

/-- The argument text that begins at a byte position, by a scan of the bytes from there on. -/
def scanArgument (text : List Char) (position : Nat) : Except Breakdown (Option (List Char)) :=
  if (utf8 text)[position]? = some (asciiByte '(') then do
    match ← closingByte .code 0 position ((utf8 text).drop position) with
    | none => pure none
    | some stop => some <$> slice text (position + 1) stop
  else pure none

section

variable {mode : Mode} {depth position : Nat} {c : Char} {text : List Char} {front rest : List UInt8}

theorem parenDepth_of_le (mode : Mode) (depth : Nat) (hc : 0x80 ≤ c.toNat) : parenDepth mode depth c = depth := by
  have hopen : c ≠ '(' := ne_of_le hc (by decide)
  have hclose : c ≠ ')' := ne_of_le hc (by decide)
  simp [parenDepth, hopen, hclose]

theorem closingByte_append (hm : mode.IsProper) (hne : front ≠ []) (hfront : ∀ b ∈ front, 0x80 ≤ b.toNat) :
    closingByte mode depth position (front ++ rest) =
      closingByte mode.unmarked depth (position + front.length) rest := by
  induction front generalizing mode position with
  | nil => exact absurd rfl hne
  | cons b front ih =>
    obtain ⟨hb, hfront⟩ := List.forall_mem_cons.mp hfront
    have hchar := le_toNat_byteChar hb
    have hclose : byteChar b ≠ ')' := ne_of_le hchar (by decide)
    rw [List.cons_append, closingByte, if_neg (by simp [hclose]), if_neg (by simp [hclose]),
      parenDepth_of_le _ _ hchar, Mode.next_of_le hm hchar, List.length_cons]
    cases front with
    | nil => rfl
    | cons b' front =>
      rw [ih hm.unmarked (List.cons_ne_nil _ _) hfront, Mode.unmarked_unmarked]
      congr 1
      omega

theorem parenDepth_succ (h : ¬ (mode = .code ∧ c = ')' ∧ depth = 0)) :
    parenDepth mode (depth + 1) c = parenDepth mode depth c + 1 := by
  simp only [parenDepth]
  split
  · next hmode =>
    split
    · rfl
    · split
      · next hclose =>
        have hdepth : depth ≠ 0 := fun hdepth ↦ h ⟨hmode, hclose, hdepth⟩
        omega
      · rfl
  · rfl

theorem closingByte_char (hm : mode.IsProper) (c : Char) (rest : List UInt8) :
    closingByte mode depth position (String.utf8EncodeChar c ++ rest) =
      if mode = .code ∧ c = ')' ∧ depth = 0 then .error .negativeDepth
      else if mode = .code ∧ c = ')' ∧ depth = 1 then .ok (some position)
      else closingByte (mode.next c) (parenDepth mode depth c) (position + c.utf8Size) rest := by
  rw [← String.length_utf8EncodeChar]
  by_cases hc : c.toNat < 0x80
  · rw [utf8EncodeChar_of_lt hc, List.singleton_append, closingByte, byteChar_asciiByte hc]
    rfl
  · have hle : 0x80 ≤ c.toNat := Nat.le_of_not_lt hc
    have hclose : c ≠ ')' := ne_of_le hle (by decide)
    rw [closingByte_append hm (utf8EncodeChar_ne_nil c) (le_of_mem_utf8EncodeChar hle), if_neg (by simp [hclose]),
      if_neg (by simp [hclose]), Mode.next_of_le hm hle, parenDepth_of_le _ _ hle]

theorem closingByte_utf8 (hm : mode.IsProper) : closingByte mode (depth + 1) position (utf8 text) =
    .ok ((enclosed? depth mode text).map fun found ↦ position + byteLength found.1) := by
  induction text generalizing mode depth position with
  | nil => rfl
  | cons c text ih =>
    rw [utf8_cons, closingByte_char hm, if_neg fun h ↦ Nat.succ_ne_zero _ h.2.2]
    by_cases hclose : mode = .code ∧ c = ')' ∧ depth = 0
    · obtain ⟨rfl, rfl, rfl⟩ := hclose
      rfl
    · have hone : ¬ (mode = .code ∧ c = ')' ∧ depth + 1 = 1) := by simpa using hclose
      rw [if_neg hone, parenDepth_succ hclose, ih (hm.next c), enclosed?, if_neg hclose, Option.map_map]
      congr 2
      funext found
      exact Nat.add_assoc _ _ _

theorem takeBytes?_append (s text : List Char) : takeBytes? (byteLength s) (s ++ text) = some s := by
  induction s with
  | nil => cases text <;> rfl
  | cons c s ih =>
    obtain ⟨k, hk⟩ := exists_utf8Size_eq c
    have hlength : byteLength (c :: s) = k + byteLength s + 1 := by
      rw [byteLength_cons]
      omega
    have hrest : k + byteLength s + 1 - c.utf8Size = byteLength s := by omega
    rw [List.cons_append, hlength, takeBytes?, if_pos (by omega), hrest, ih]
    rfl

theorem slice_append (s t u : List Char) :
    slice (s ++ (t ++ u)) (byteLength s) (byteLength s + byteLength t) = .ok t := by
  have hrest : fromByte? (byteLength s) (s ++ (t ++ u)) = some (t ++ u) := fromByte?_eq_some_iff.mpr ⟨s, rfl, rfl⟩
  rw [slice, hrest]
  simp [takeBytes?_append]

/-- The scan of the bytes never breaks down, and it finds what the scan of the characters finds. -/
theorem scanArgument_eq (text : List Char) (position : Nat) :
    scanArgument text position = .ok (balancedArgument? text position) := by
  by_cases hopen : ∃ s t, text = s ++ '(' :: t ∧ byteLength s = position
  · rw [scanArgument, if_pos ((getElem?_utf8_eq_iff (by decide)).mpr hopen)]
    obtain ⟨s, t, rfl, rfl⟩ := hopen
    have hparen : closingByte .code 0 (byteLength s) (utf8 ('(' :: t)) =
        closingByte .code 1 (byteLength s + 1) (utf8 t) := rfl
    rw [drop_utf8, hparen, closingByte_utf8 Mode.isProper_code, balancedArgument?_append]
    cases hinside : enclosed? 0 .code t with
    | none => rfl
    | some found =>
      obtain ⟨inside, rest⟩ := found
      obtain ⟨rfl, -⟩ := enclosed?_eq_some_iff.mp hinside
      have hlength : byteLength s + 1 = byteLength (s ++ ['(']) := (byteLength_append s ['(']).symm
      have htext : s ++ '(' :: (inside ++ ')' :: rest) = (s ++ ['(']) ++ (inside ++ ')' :: rest) := by simp
      have hslice : slice (s ++ '(' :: (inside ++ ')' :: rest)) (byteLength s + 1)
          (byteLength s + 1 + byteLength inside) = .ok inside := by
        rw [htext, hlength, slice_append]
      exact congrArg (some <$> ·) hslice
  · have hnone : ∀ rest, fromByte? position text ≠ some ('(' :: rest) := by
      intro rest hrest
      obtain ⟨s, rfl, hs⟩ := fromByte?_eq_some_iff.mp hrest
      exact hopen ⟨s, rest, rfl, hs⟩
    rw [scanArgument, if_neg fun h ↦ hopen ((getElem?_utf8_eq_iff (by decide)).mp h), balancedArgument?]
    split
    · next heq => exact absurd heq (hnone _)
    · rfl

end

/-- The parentheses outside literals, scanned from the opening one in front of a text on, balance for the first time at
the character behind the text, and this one is outside literals. -/
structure FirstBalance (inside : List Char) (closing : Char) : Prop where
  outside : Mode.code.after ('(' :: inside) = .code
  equal : Mode.code.count '(' ('(' :: inside ++ [closing]) = Mode.code.count ')' ('(' :: inside ++ [closing])
  first : ∀ front, front ≠ [] → front <+: '(' :: inside → Mode.code.count '(' front ≠ Mode.code.count ')' front

section

variable {inside text s : List Char} {closing : Char} {position : Nat}

theorem count_singleton (mode : Mode) (c a : Char) : mode.count c [a] = if mode = .code ∧ a = c then 1 else 0 := rfl

theorem count_opening (front : List Char) : Mode.code.count '(' ('(' :: front) = Mode.code.count '(' front + 1 := by
  rw [Mode.count, if_pos ⟨rfl, rfl⟩, Nat.add_comm]
  rfl

theorem count_closing (front : List Char) : Mode.code.count ')' ('(' :: front) = Mode.code.count ')' front := by
  rw [Mode.count, if_neg (by decide), Nat.zero_add]
  rfl

/-- As long as they have not balanced, no more parentheses were closed behind the first one than opened. -/
theorem FirstBalance.count_le (h : FirstBalance inside closing) {front : List Char} (hfront : front <+: inside) :
    Mode.code.count ')' front ≤ Mode.code.count '(' front := by
  induction front using List.reverseRecOn with
  | nil => exact Nat.le_refl 0
  | append_singleton front c ih =>
    have hle := ih ((List.prefix_append front [c]).trans hfront)
    have hdiffer := h.first ('(' :: (front ++ [c])) (List.cons_ne_nil _ _) ((List.prefix_cons_inj '(').mpr hfront)
    rw [count_opening, count_closing] at hdiffer
    rw [Mode.count_append, Mode.count_append] at hdiffer ⊢
    -- one character closes at most one, so the counts cannot pass each other without being equal
    have hstep : (Mode.code.after front).count ')' [c] ≤ 1 := by
      rw [count_singleton]
      split <;> omega
    omega

theorem firstBalance_iff : FirstBalance inside closing ↔ closing = ')' ∧ Balanced 0 .code inside := by
  have hafter : Mode.code.after ('(' :: inside) = Mode.code.after inside := rfl
  have hlast (c : Char) : Mode.code.after inside = .code →
      Mode.code.count c ('(' :: inside ++ [closing]) =
        Mode.code.count c ('(' :: inside) + if closing = c then 1 else 0 := by
    intro houtside
    rw [Mode.count_append, hafter, houtside, count_singleton]
    simp
  constructor
  · intro h
    have houtside : Mode.code.after inside = .code := h.outside
    have hequal := h.equal
    have hle := h.count_le (List.prefix_refl inside)
    rw [hlast _ houtside, hlast _ houtside, count_opening, count_closing] at hequal
    have hclosing : closing = ')' := by
      by_contra hclosing
      rw [if_neg hclosing] at hequal
      omega
    subst hclosing
    simp at hequal
    exact ⟨rfl, houtside, by omega, fun front hfront ↦ h.count_le hfront⟩
  · rintro ⟨rfl, hb⟩
    refine ⟨hb.ends, ?_, fun front hne hfront ↦ ?_⟩
    · have hclosed := hb.closed
      rw [hlast _ hb.ends, hlast _ hb.ends, count_opening, count_closing]
      simp
      omega
    · rcases List.prefix_cons_iff.mp hfront with rfl | ⟨front, rfl, hinside⟩
      · exact absurd rfl hne
      · have hpartnered := hb.partnered front hinside
        rw [count_opening, count_closing]
        omega

theorem balancedArgument?_eq_some_iff : balancedArgument? text position = some s ↔
    ∃ front back, text = front ++ '(' :: (s ++ ')' :: back) ∧ byteLength front = position ∧ Balanced 0 .code s := by
  constructor
  · intro h
    rw [balancedArgument?] at h
    split at h
    · next rest heq =>
      obtain ⟨front, rfl, hfront⟩ := fromByte?_eq_some_iff.mp heq
      obtain ⟨⟨_, back⟩, hrest, rfl⟩ := Option.map_eq_some_iff.mp h
      obtain ⟨rfl, hb⟩ := enclosed?_eq_some_iff.mp hrest
      exact ⟨front, back, rfl, hfront, hb⟩
    · cases h
  · rintro ⟨front, back, rfl, rfl, hb⟩
    rw [balancedArgument?_append]
    exact Option.map_eq_some_iff.mpr ⟨(s, back), enclosed?_eq_some_iff.mpr ⟨rfl, hb⟩, rfl⟩

theorem exists_of_take_drop_eq (h : ((utf8 text).drop position).take (byteLength s + 2) = utf8 ('(' :: (s ++ [')']))) :
    ∃ front back, text = front ++ '(' :: (s ++ ')' :: back) ∧ byteLength front = position := by
  have hopen : IsAscii '(' := by decide
  have hclose : IsAscii ')' := by decide
  rw [utf8_cons_ascii hopen, utf8_append, utf8_cons_ascii hclose] at h
  have hbytes : utf8 text = (utf8 text).take position ++ asciiByte '(' :: (utf8 s ++ asciiByte ')' ::
      ((utf8 text).drop position).drop (byteLength s + 2)) := by
    conv_lhs => rw [← List.take_append_drop position (utf8 text),
      ← List.take_append_drop (byteLength s + 2) ((utf8 text).drop position), h]
    simp [utf8]
  obtain ⟨front, behind, rfl, hfront, hbehind⟩ := exists_of_utf8_eq hopen hbytes
  obtain ⟨s', back, rfl, hs', -⟩ := exists_of_utf8_eq hclose hbehind
  obtain rfl := utf8_injective hs'
  refine ⟨front, back, rfl, ?_⟩
  have hlength := congrArg List.length hfront
  rw [length_utf8, List.length_take, length_utf8, byteLength_append, byteLength_cons] at hlength
  have hpos := Char.utf8Size_pos '('
  omega

/-- The scan never breaks down; it finds the text in front of the first balance, if there is one; and it finds the same
wherever the bytes from the opening parenthesis on through the closing one are the same. -/
theorem scanArgument_firstBalance (text : List Char) (position : Nat) :
    scanArgument text position = .ok (balancedArgument? text position) ∧
    (∀ s, balancedArgument? text position = some s ↔ ∃ front closing back,
      text = front ++ '(' :: (s ++ closing :: back) ∧ byteLength front = position ∧ FirstBalance s closing) ∧
    ∀ s, balancedArgument? text position = some s → ∀ text' position',
      ((utf8 text').drop position').take (byteLength s + 2) = ((utf8 text).drop position).take (byteLength s + 2) →
      balancedArgument? text' position' = some s := by
  refine ⟨scanArgument_eq text position, fun s ↦ ?_, fun s hs text' position' hagree ↦ ?_⟩
  · rw [balancedArgument?_eq_some_iff]
    constructor
    · rintro ⟨front, back, htext, hfront, hb⟩
      exact ⟨front, ')', back, htext, hfront, firstBalance_iff.mpr ⟨rfl, hb⟩⟩
    · rintro ⟨front, closing, back, htext, hfront, hbalance⟩
      obtain ⟨rfl, hb⟩ := firstBalance_iff.mp hbalance
      exact ⟨front, back, htext, hfront, hb⟩
  · obtain ⟨front, back, rfl, rfl, hb⟩ := balancedArgument?_eq_some_iff.mp hs
    have hlength : (utf8 ('(' :: (s ++ [')']))).length = byteLength s + 2 := by
      rw [length_utf8, byteLength_cons, byteLength_append]
      have hopen : Char.utf8Size '(' = 1 := by decide
      have hclose : byteLength [')'] = 1 := by decide
      omega
    have hbytes : ((utf8 (front ++ '(' :: (s ++ ')' :: back))).drop (byteLength front)).take (byteLength s + 2) =
        utf8 ('(' :: (s ++ [')'])) := by
      have htext : '(' :: (s ++ ')' :: back) = '(' :: (s ++ [')']) ++ back := by simp
      rw [drop_utf8, htext, utf8_append, ← hlength, List.take_left]
    rw [hbytes] at hagree
    obtain ⟨front', back', rfl, rfl⟩ := exists_of_take_drop_eq hagree
    exact balancedArgument?_eq_some_iff.mpr ⟨front', back', rfl, rfl, hb⟩

theorem scanArgument_firstBalance_quoted :
    balancedArgument? "é(f(')'), 1)) ".toList 2 = some "f(')'), 1".toList ∧
    ((utf8 "print(f(')'), 1)".toList).drop 5).take 11 = ((utf8 "é(f(')'), 1)) ".toList).drop 2).take 11 ∧
    balancedArgument? "print(f(')'), 1)".toList 5 = some "f(')'), 1".toList := by
  have hfound : balancedArgument? "é(f(')'), 1)) ".toList 2 = some "f(')'), 1".toList := by decide
  have hagree : ((utf8 "print(f(')'), 1)".toList).drop 5).take 11 =
      ((utf8 "é(f(')'), 1)) ".toList).drop 2).take 11 := by decide
  exact ⟨hfound, hagree, (scanArgument_firstBalance _ 2).2.2 _ hfound _ _ hagree⟩

end

end AnswerKey.Code
