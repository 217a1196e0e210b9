import AnswerKey.Execution.Child
import AnswerKey.Settings.Configuration

namespace AnswerKey

namespace Toml

variable {α : Type} {entries : List (String × Toml)} {name : String} {default a : α} {read? : Toml → Option α}
  {v : Toml} {n : Nat}

theorem optional?_cases (h : optional? entries name default read? = some a) : a = default ∨ ∃ v, read? v = some a := by
  unfold optional? at h
  split at h
  · exact .inl (Option.some.inj h).symm
  · exact .inr ⟨_, h⟩

theorem asNat?_lt (h : v.asNat? = some n) : n + 1 < wordSize := by
  cases v with
  | integer i =>
    have hlt := i.toInt_lt
    simp only [asNat?, Option.ite_none_left_eq_some, Option.some.injEq] at h
    unfold wordSize
    omega
  | string | float | boolean | dateTime | array | table => cases h

theorem optional?_asNat?_lt {default : Nat} (hdefault : default + 1 < wordSize)
    (h : optional? entries name default asNat? = some n) : n + 1 < wordSize := by
  obtain rfl | ⟨v, hv⟩ := optional?_cases h
  · exact hdefault
  · exact asNat?_lt hv

end Toml

/-- A word holds one more than the greatest number of values, and one more than the greatest number of bytes. -/
def Limits.LeaveRoom (limits : Limits) : Prop :=
  limits.maxOutput + 1 < wordSize ∧ limits.maxValues + 1 < wordSize

theorem Limits.leaveRoom_default : Limits.LeaveRoom {} := ⟨by decide, by decide⟩

theorem Limits.leaveRoom_of_ofToml? {v : Toml} {limits : Limits} (h : ofToml? v = some limits) : limits.LeaveRoom := by
  simp only [ofToml?, Option.bind_eq_bind, Option.pure_def, Option.bind_eq_some_iff, Option.some.injEq] at h
  obtain ⟨entries, -, timeout, -, maxValues, hvalues, maxOutput, houtput, rfl⟩ := h
  exact ⟨Toml.optional?_asNat?_lt (by decide) houtput, Toml.optional?_asNat?_lt (by decide) hvalues⟩

namespace Configuration

variable {c : Configuration}

theorem leaveRoom_of_ofEntries? {entries : List (String × Toml)} (h : ofEntries? entries = some c) :
    c.limits.LeaveRoom := by
  simp only [ofEntries?, Option.bind_eq_bind, Option.pure_def, Option.bind_eq_some_iff, Option.some.injEq] at h
  obtain ⟨limits, hlimits, programs, -, maxConcurrent, -, rfl⟩ := h
  obtain rfl | ⟨v, hv⟩ := Toml.optional?_cases hlimits
  · exact Limits.leaveRoom_default
  · exact Limits.leaveRoom_of_ofToml? hv

theorem leaveRoom_of_read {text : List Char} (h : read text = .ok c) : c.limits.LeaveRoom := by
  unfold read at h
  split at h
  · cases h
  · next found hfound =>
    obtain ⟨entries, -, hentries⟩ := Option.bind_eq_some_iff.mp hfound
    split at h
    · obtain rfl := Except.ok.inj h
      exact leaveRoom_of_ofEntries? hentries
    · cases h

end Configuration

end AnswerKey
