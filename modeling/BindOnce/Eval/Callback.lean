import BindOnce.Eval.State
import BindOnce.Value.Words

/-!
# Operators that call functions

`value |> f` hands a value to a function.  `list map f`, `list filter f` and `list reduce f` hand it
the elements of a list one by one, each with its position and the whole list.

These operators hold values, not expressions, and do not care how a function is called: how to do
that is a parameter, the action `call`.

Since a function returns truth as a word, `filter` keeps the elements for which it gets that word.
It asks about one element after the other; that it might as well ask about all of them first and
select then is `keepEach_eq`.
`reduce` starts from the first element, which it returns as it is if there is no other.
-/

set_option autoImplicit false
namespace BindOnce

/-- How to call a function with given arguments, on a given line. -/
abbrev Call := Func → List Value → Line → EvalM Value

namespace Callback

open EvalM

variable (call : Call) (line : Line)

/-- The value of `value |> f`. -/
def pipe (value f : Value) : EvalM Value :=
  match f with
  | .function f => call f [value] line
  | other => fail (.binaryOperands .pipe value.kind other.kind)

/-- Call a function for every element of a list, in order, and collect the results.  The function
gets the element, its position and the list. -/
def callEach (f : Func) (list : Value) (items : List Value) : EvalM (List Value) :=
  items.zipIdx.mapM fun (item, i) => call f [item, .ofIndex i, list] line

/-- The items whose verdict is the word for truth. -/
def accepted (items verdicts : List Value) : List Value :=
  (items.zip verdicts).filterMap fun (item, verdict) =>
    if verdict.isTrueWord then some item else none

theorem accepted_cons (item verdict : Value) (items verdicts : List Value) :
    accepted (item :: items) (verdict :: verdicts) =
      if verdict.isTrueWord then item :: accepted items verdicts else accepted items verdicts := by
  rw [accepted, List.zip_cons_cons, List.filterMap_cons]
  by_cases h : verdict.isTrueWord <;> simp [h, accepted]

/-- The accepted items are in their order. -/
theorem accepted_sublist (items verdicts : List Value) :
    (accepted items verdicts).Sublist items := by
  induction items generalizing verdicts with
  | nil => exact .slnil
  | cons item items ih =>
    cases verdicts with
    | nil => exact List.nil_sublist _
    | cons verdict verdicts =>
      rw [accepted_cons]
      split
      · exact (ih verdicts).cons_cons item
      · exact (ih verdicts).cons item

/-- Call a function for every element of a list, in order, and keep an element when the function
gives the word for truth for it. -/
def keepEach (f : Func) (list : Value) (items : List Value) : EvalM (List Value) :=
  items.zipIdx.filterMapM fun (item, i) => do
    let verdict ← call f [item, .ofIndex i, list] line
    return if verdict.isTrueWord then some item else none

/-- Whether the elements are selected one by one or when all verdicts are there makes no
difference. -/
theorem keepEach_eq (f : Func) (list : Value) (items : List Value) :
    keepEach call line f list items = do
      let verdicts ← callEach call line f list items
      return accepted items verdicts := by
  unfold keepEach callEach
  -- behind the first element positions start later, so the induction is for any start
  generalize 0 = start
  induction items generalizing start with
  | nil => rfl
  | cons item items ih =>
    rw [List.zipIdx_cons, List.filterMapM_cons, List.mapM_cons, ih]
    simp only [bind_assoc, pure_bind]
    refine bind_congr fun verdict => ?_
    by_cases h : verdict.isTrueWord <;> simp [h, accepted_cons]

/-- The value of `list map f`: a new list of the results. -/
def map (list f : Value) : EvalM Value :=
  match list, f with
  | .list _ items, .function f => do makeList (← callEach call line f list items)
  | _, _ => fail (.binaryOperands .map list.kind f.kind)

/-- The value of `list filter f`: a new list of the elements that the function accepts. -/
def filter (list f : Value) : EvalM Value :=
  match list, f with
  | .list _ items, .function f => do makeList (← keepEach call line f list items)
  | _, _ => fail (.binaryOperands .filter list.kind f.kind)

/-- The value of `list reduce f`: the elements combined from the left.  The function gets what has
been combined so far, the next element, its position and the list. -/
def reduce (list f : Value) : EvalM Value :=
  match list, f with
  | .list _ [], .function _ => fail .emptyReduce
  | .list _ (first :: rest), .function f =>
    (rest.zipIdx 1).foldlM (fun acc (item, i) => call f [acc, item, .ofIndex i, list] line) first
  | _, _ => fail (.binaryOperands .reduce list.kind f.kind)

end Callback
end BindOnce
