namespace OpStubs

/-- Whether `rest` does not begin with a character of a class. -/
def Stops (p : Char → Bool) (rest : List Char) : Prop := ∀ c ∈ rest.head?, p c = false

theorem stops_nil (p : Char → Bool) : Stops p [] := by
  intro c hc
  cases hc

theorem stops_cons {p : Char → Bool} {c : Char} {r : List Char} : Stops p (c :: r) ↔ p c = false := by
  simp [Stops]

theorem takeWhile_append_of_stops {p : Char → Bool} {s rest : List Char} (h : ∀ c ∈ s, p c = true)
    (hr : Stops p rest) : (s ++ rest).takeWhile p = s := by
  rw [List.takeWhile_append_of_pos h]
  cases rest with
  | nil => simp
  | cons c r =>
    rw [stops_cons] at hr
    rw [List.takeWhile_cons, hr]
    simp

end OpStubs
