import AnswerKey.Json.Printer

namespace AnswerKey

def Printable (text : List Char) : Prop := ∀ c ∈ text, 0x20 ≤ c.toNat

instance : DecidablePred Printable := List.decidableBAll _

section

variable {s t : List Char} {c : Char}

@[simp] theorem printable_nil : Printable [] := List.forall_mem_nil _

@[simp] theorem printable_cons : Printable (c :: t) ↔ 0x20 ≤ c.toNat ∧ Printable t := List.forall_mem_cons

@[simp] theorem printable_append : Printable (s ++ t) ↔ Printable s ∧ Printable t := List.forall_mem_append

theorem Printable.subset (h : Printable t) (hs : s ⊆ t) : Printable s := fun c hc ↦ h c (hs hc)

theorem Printable.newline_not_mem (h : Printable t) : '\n' ∉ t := fun hmem ↦ absurd (h _ hmem) (by decide)

end

theorem printable_toDigits (n : Nat) : Printable (Nat.toDigits 10 n) := by
  intro c hc
  have hdigit := Nat.isDigit_of_mem_toDigits (by decide) (by decide) hc
  simp only [Char.isDigit, Bool.and_eq_true, decide_eq_true_eq, ge_iff_le, UInt32.le_iff_toNat_le] at hdigit
  exact Nat.le_trans (by decide) hdigit.1

theorem newline_not_mem_toDigits (n : Nat) : '\n' ∉ Nat.toDigits 10 n := (printable_toDigits n).newline_not_mem

namespace Binary64

theorem printable_shortest (x : Binary64) : Printable x.shortest.1 := by
  unfold shortest
  dsimp only
  split
  · decide
  · next digits power hfound =>
    obtain ⟨n, -, hn⟩ := List.exists_of_findSome?_eq_some hfound
    obtain ⟨c, -, hc⟩ := Option.map_eq_some_iff.mp hn
    obtain ⟨rfl, -⟩ := Prod.mk.inj hc
    refine (printable_toDigits c).subset fun a ha ↦ ?_
    exact List.mem_reverse.mp ((List.dropWhile_suffix _).subset (List.mem_reverse.mp ha))

theorem printable_place {digits : List Char} (h : Printable digits) (power : Int) : Printable (place digits power) := by
  have htake (n : Nat) : Printable (digits.take n) := h.subset (List.take_subset n digits)
  have htail : Printable digits.tail := h.subset fun _ hc ↦ List.mem_of_mem_tail hc
  have hdrop (n : Nat) : Printable (digits.drop n) := h.subset (List.drop_subset n digits)
  have hzeros (n : Nat) : Printable (List.replicate n '0') := fun c hc ↦ by
    rw [List.eq_of_mem_replicate hc]
    decide
  unfold place
  dsimp only
  split
  · have hsign : 0x20 ≤ (if power < 0 then '-' else '+').toNat := by split <;> decide
    split <;> simp [h, htake, htail, hsign, printable_toDigits]
  split
  · simp [h, hzeros]
  split
  · simp [h, hzeros]
  · simp [htake, hdrop]

theorem printable_text (x : Binary64) : Printable x.text := by
  have hplace := printable_place x.printable_shortest x.shortest.2
  unfold text
  dsimp only
  split <;> split <;> simp [hplace]

end Binary64

theorem Number.printable_text (n : Number) : Printable n.text := by
  cases n with
  | int n =>
    rw [text]
    split <;> simp [printable_toDigits]
  | float x => exact x.printable_text

namespace Json

theorem printable_escape (c : Char) : Printable (escape c) := by
  have hdigit : ∀ n < 16, 0x20 ≤ (Nat.digitChar n).toNat := by decide
  unfold escape
  repeat' split
  any_goals decide
  · next hcontrol => simp [hdigit (c.toNat / 16) (by omega), hdigit (c.toNat % 16) (by omega)]
  · next hcontrol => simpa using hcontrol

theorem printable_quoted (s : List Char) : Printable (quoted s) := by
  have h : Printable (s.flatMap escape) := fun a ha ↦ by
    obtain ⟨c, -, hc⟩ := List.mem_flatMap.mp ha
    exact printable_escape c a hc
  rw [quoted, printable_append, printable_cons]
  exact ⟨⟨by decide, h⟩, by decide⟩

mutual

theorem printable_compact : (value : Json) → Printable value.compact
  | .null => by decide
  | .bool true => by decide
  | .bool false => by decide
  | .number n => n.printable_text
  | .string s => printable_quoted s.toList
  | .array items => by simpa [compact] using printable_compactItems items
  | .object fields => by simpa [compact] using printable_compactFields fields

theorem printable_compactItems : (items : List Json) → Printable (compactItems items)
  | [] => printable_nil
  | [item] => printable_compact item
  | item :: next :: items => by
    simpa [compactItems] using ⟨printable_compact item, printable_compactItems (next :: items)⟩

theorem printable_compactFields : (fields : List (String × Json)) → Printable (compactFields fields)
  | [] => printable_nil
  | [(name, value)] => by
    simpa [compactFields] using ⟨printable_quoted name.toList, printable_compact value⟩
  | (name, value) :: next :: fields => by
    simpa [compactFields] using ⟨printable_quoted name.toList, printable_compact value,
      printable_compactFields (next :: fields)⟩

end

theorem newline_not_mem_quoted (s : List Char) : '\n' ∉ quoted s := (printable_quoted s).newline_not_mem

theorem newline_not_mem_compact (value : Json) : '\n' ∉ value.compact := (printable_compact value).newline_not_mem

end Json
end AnswerKey
