import Mathlib.Data.List.Basic

set_option autoImplicit false

-- Readers that consume an input from the front. `rest` is what a reader state has
-- left of it. A reader reads a code as a value when from every state that starts
-- with the code it returns the value and consumes exactly the code.
variable {State Error Item Value Result : Type}

def Reads (rest : State → List Item) (reader : StateT State (Except Error) Value) (code : List Item)
    (value : Value) : Prop :=
  ∀ state tail, rest state = code ++ tail → ∃ next, reader.run state = .ok (value, next) ∧ rest next = tail

-- A reader that consumes the code and then behaves like another reader.
def Reaches (rest : State → List Item) (reader follow : StateT State (Except Error) Value) (code : List Item) : Prop :=
  ∀ state tail, rest state = code ++ tail → ∃ next, reader.run state = follow.run next ∧ rest next = tail

-- What a chain of readers returned came through each of them.
theorem read_bind_run (reader : StateT State (Except Error) Value) (resume : Value → StateT State (Except Error) Result)
    (state last : State) (result : Result) (ran : (reader >>= resume).run state = .ok (result, last)) :
    ∃ value next, reader.run state = .ok (value, next) ∧ (resume value).run next = .ok (result, last) := by
  rw [StateT.run_bind] at ran
  cases first : reader.run state with
  | error error =>
      rw [first] at ran
      cases ran
  | ok pair =>
      rw [first] at ran
      exact ⟨pair.1, pair.2, rfl, ran⟩

theorem read_bind_ok (reader : StateT State (Except Error) Value) (resume : Value → StateT State (Except Error) Result)
    (state last : State) (result : Result) (ran : (reader >>= resume).run state = .ok (result, last)) :
    ∃ value next, (resume value).run next = .ok (result, last) := by
  obtain ⟨value, next, -, later⟩ := read_bind_run reader resume state last result ran
  exact ⟨value, next, later⟩

namespace Reads

variable {rest : State → List Item} {reader : StateT State (Except Error) Value} {code more : List Item} {value : Value}

theorem pure (value : Value) : Reads rest (Pure.pure value : StateT State (Except Error) Value) [] value := by
  intro state tail starts
  exact ⟨state, rfl, starts⟩

theorem reaches (reads : Reads rest reader code value) (resume : Value → StateT State (Except Error) Result) :
    Reaches rest (reader >>= resume) (resume value) code := by
  intro state tail starts
  obtain ⟨next, ran, left⟩ := reads state tail starts
  refine ⟨next, ?_, left⟩
  rw [StateT.run_bind, ran]
  rfl

theorem map (reads : Reads rest reader code value) (f : Value → Result) :
    Reads rest (f <$> reader) code (f value) := by
  intro state tail starts
  obtain ⟨next, ran, left⟩ := reads state tail starts
  refine ⟨next, ?_, left⟩
  rw [StateT.run_map, ran]
  rfl

end Reads

namespace Reaches

variable {rest : State → List Item} {reader middle follow : StateT State (Except Error) Value}
  {code more : List Item} {value : Value}

theorem trans (first : Reaches rest reader middle code) (second : Reaches rest middle follow more) :
    Reaches rest reader follow (code ++ more) := by
  intro state tail starts
  rw [List.append_assoc] at starts
  obtain ⟨next, ran, left⟩ := first state (more ++ tail) starts
  obtain ⟨last, went, after⟩ := second next tail left
  exact ⟨last, ran.trans went, after⟩

theorem reads (first : Reaches rest reader middle code) (second : Reads rest middle more value) :
    Reads rest reader (code ++ more) value := by
  intro state tail starts
  rw [List.append_assoc] at starts
  obtain ⟨next, ran, left⟩ := first state (more ++ tail) starts
  obtain ⟨last, finished, after⟩ := second next tail left
  exact ⟨last, ran.trans finished, after⟩

end Reaches

namespace Reads

variable {rest : State → List Item} {reader : StateT State (Except Error) Value} {code more : List Item} {value : Value}
  {resume : Value → StateT State (Except Error) Result} {result : Result}

theorem bind (reads : Reads rest reader code value) (resumes : Reads rest (resume value) more result) :
    Reads rest (reader >>= resume) (code ++ more) result :=
  (reads.reaches resume).reads resumes

theorem bind_reaches {follow : StateT State (Except Error) Result} (reads : Reads rest reader code value)
    (resumes : Reaches rest (resume value) follow more) : Reaches rest (reader >>= resume) follow (code ++ more) :=
  (reads.reaches resume).trans resumes

end Reads
