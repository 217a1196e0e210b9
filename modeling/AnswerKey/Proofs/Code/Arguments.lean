import AnswerKey.Code.Arguments
import Mathlib.Data.List.Infix

namespace AnswerKey.Code

def Mode.count (c : Char) : Mode → List Char → Nat
  | _, [] => 0
  | mode, a :: text => (if mode = .code ∧ a = c then 1 else 0) + (mode.next a).count c text

/-- A text that closes the parentheses open in front of it and its own, each after it was opened, and that ends outside
literals. -/
structure Balanced (depth : Nat) (mode : Mode) (text : List Char) : Prop where
  ends : mode.after text = .code
  closed : mode.count ')' text = mode.count '(' text + depth
  partnered : ∀ front, front <+: text → mode.count ')' front ≤ mode.count '(' front + depth

variable {depth : Nat} {mode : Mode} {c : Char} {text inside rest : List Char}

theorem parenDepth_count (h : ¬ (mode = .code ∧ c = ')' ∧ depth = 0)) (front : List Char) :
    (mode.count ')' (c :: front) : Int) - (mode.count '(' (c :: front) + depth) =
      (mode.next c).count ')' front - ((mode.next c).count '(' front + parenDepth mode depth c) := by
  simp only [Mode.count, parenDepth]
  by_cases hmode : mode = .code
  · by_cases hopen : c = '('
    · simp [hmode, hopen]
      omega
    · by_cases hclose : c = ')'
      · have hdepth : depth ≠ 0 := fun hdepth ↦ h ⟨hmode, hclose, hdepth⟩
        simp [hmode, hclose]
        omega
      · simp [hmode, hopen, hclose]
  · simp [hmode]

theorem balanced_cons (h : ¬ (mode = .code ∧ c = ')' ∧ depth = 0)) :
    Balanced depth mode (c :: inside) ↔ Balanced (parenDepth mode depth c) (mode.next c) inside := by
  have hcount := parenDepth_count h
  constructor
  · intro hb
    refine ⟨hb.ends, ?_, fun front hfront ↦ ?_⟩
    · have := hb.closed
      have := hcount inside
      omega
    · have := hb.partnered (c :: front) ((List.prefix_cons_inj c).mpr hfront)
      have := hcount front
      omega
  · intro hb
    refine ⟨hb.ends, ?_, fun front hfront ↦ ?_⟩
    · have := hb.closed
      have := hcount inside
      omega
    · rcases List.prefix_cons_iff.mp hfront with rfl | ⟨front, rfl, hinside⟩
      · simp [Mode.count]
      · have := hb.partnered front hinside
        have := hcount front
        omega

theorem enclosed?_eq_some_iff :
    enclosed? depth mode text = some (inside, rest) ↔ text = inside ++ ')' :: rest ∧ Balanced depth mode inside := by
  induction text generalizing depth mode inside with
  | nil => simp [enclosed?]
  | cons c text ih =>
    by_cases hclose : mode = .code ∧ c = ')' ∧ depth = 0
    · obtain ⟨rfl, rfl, rfl⟩ := hclose
      rw [enclosed?, if_pos ⟨rfl, rfl, rfl⟩]
      constructor
      · rintro ⟨⟩
        exact ⟨rfl, rfl, rfl, by simp [Mode.count]⟩
      · rintro ⟨htext, hb⟩
        cases inside with
        | nil =>
          obtain ⟨-, rfl⟩ := List.cons.inj htext
          rfl
        | cons a inside =>
          obtain ⟨rfl, -⟩ := List.cons.inj htext
          have := hb.partnered [')'] (by simp)
          simp [Mode.count] at this
    · rw [enclosed?, if_neg hclose, Option.map_eq_some_iff]
      constructor
      · rintro ⟨⟨inside, _⟩, hrest, heq⟩
        obtain ⟨rfl, rfl⟩ := Prod.mk.inj heq
        obtain ⟨rfl, hb⟩ := ih.mp hrest
        exact ⟨rfl, (balanced_cons hclose).mpr hb⟩
      · rintro ⟨htext, hb⟩
        cases inside with
        | nil =>
          obtain ⟨rfl, rfl⟩ := List.cons.inj htext
          exact absurd ⟨hb.ends, rfl, by have := hb.closed; simpa [Mode.count] using this.symm⟩ hclose
        | cons a inside =>
          obtain ⟨rfl, rfl⟩ := List.cons.inj htext
          exact ⟨(inside, rest), ih.mpr ⟨rfl, (balanced_cons hclose).mp hb⟩, rfl⟩

end AnswerKey.Code
