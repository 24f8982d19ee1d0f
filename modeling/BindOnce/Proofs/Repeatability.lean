import BindOnce.Proofs.ListNumbers
import BindOnce.Proofs.SingleAssignment
import Mathlib.Order.Interval.Set.Defs
import Mathlib.Data.Set.Function

/-!
# Calls can be repeated

A call made twice in a row does the same twice.  What the first call bound is gone when it is over,
its frame has been popped, and what it wrote is not read by anyone.  Only the numbering of lists has
gone on, so the second call gives other numbers to the lists it makes.  No program can tell, since
all it can do with a number is to compare it with another.

## What is here

* `ListId.renumber` — the numbers that the second call gives, for those that the first one gave.
* `Matching.renumbering` — the matching of the two calls: what existed before stands for itself, and
  lists made in the same order stand for each other.
* `calls_repeatable` — the two calls compared.
-/

set_option autoImplicit false
namespace BindOnce

/-! ## Other numbers for the same lists -/

/-- The number of a list in an evaluation where numbering starts from `m`, for its number where
numbering starts from `n`.  Lists from before have the same number. -/
def ListId.renumber (n m id : Nat) : Nat := if id < n then id else id - n + m

section Renumber

variable {n m i : Nat}

theorem ListId.renumber_of_lt (h : i < n) : renumber n m i = i := if_pos h

theorem ListId.renumber_of_le (h : n ≤ i) : renumber n m i = i - n + m := if_neg (Nat.not_lt.2 h)

theorem ListId.renumber_injective (h : n ≤ m) : Function.Injective (renumber n m) := by
  intro i j hij
  rcases Nat.lt_or_ge i n with hi | hi <;> rcases Nat.lt_or_ge j n with hj | hj
  · rwa [renumber_of_lt hi, renumber_of_lt hj] at hij
  · rw [renumber_of_lt hi, renumber_of_le hj] at hij
    omega
  · rw [renumber_of_le hi, renumber_of_lt hj] at hij
    omega
  · rw [renumber_of_le hi, renumber_of_le hj] at hij
    omega

theorem ListId.renumber_self : renumber n m n = m := by
  rw [renumber_of_le (Nat.le_refl n), Nat.sub_self, Nat.zero_add]

/-- Numbers from `n` on are taken to numbers from `m` on, in the same order. -/
theorem ListId.renumber_bijOn (h : n ≤ i) :
    Set.BijOn (renumber n m) (Set.Ico n i) (Set.Ico m (renumber n m i)) := by
  refine ⟨fun j hj => ?_, fun j hj k hk heq => ?_, fun k hk => ⟨k - m + n, ?_, ?_⟩⟩
  · rw [Set.mem_Ico] at hj ⊢
    rw [renumber_of_le hj.1, renumber_of_le h]
    omega
  · rw [Set.mem_Ico] at hj hk
    rw [renumber_of_le hj.1, renumber_of_le hk.1] at heq
    omega
  · rw [Set.mem_Ico] at hk ⊢
    rw [renumber_of_le h] at hk
    omega
  · rw [Set.mem_Ico] at hk
    rw [renumber_of_le (Nat.le_add_left n _)]
    omega

theorem ListId.renumber_succ (h : n ≤ i) : renumber n m (i + 1) = renumber n m i + 1 := by
  rw [renumber_of_le h, renumber_of_le (Nat.le_succ_of_le h)]
  omega

/-- Everything stands for itself, except that lists made in the same order stand for each other,
where the numbering starts from `n` and from `m`, and that the two sides write to channels of their
own. -/
def Matching.renumbering (n m : ListId) (channel channel' : Channel) : Matching :=
  ofLists (fun id id' => ListId.renumber n m id = id')
    (fun id id' => n ≤ id ∧ ListId.renumber n m id = id')
    (fun c c' => ∃ text : String, c = channel.write text ∧ c' = channel'.write text)

theorem Matching.renumbering_lawful (interner : Interner) (h : n ≤ m)
    {channel channel' : Channel} :
    (renumbering n m channel channel').Lawful interner interner := by
  refine ofLists_lawful interner ?_ And.right ?_ ?_
  · rintro i _ j _ rfl rfl
    exact (ListId.renumber_injective h).eq_iff.symm
  · rintro i _ ⟨hi, rfl⟩
    exact ⟨Nat.le_succ_of_le hi, ListId.renumber_succ hi⟩
  · rintro _ _ line ⟨text, rfl, rfl⟩
    rw [Channel.writeLine_eq_write, Channel.writeLine_eq_write, Channel.write_write,
      Channel.write_write]
    exact ⟨_, rfl, rfl⟩

end Renumber

/-! ## Two calls -/

theorem Argument.forall₂_matches_value {M : Matching} {vs vs' : List Value}
    (h : List.Forall₂ (Value.Matches M) vs vs') :
    List.Forall₂ (Argument.Matches M) (vs.map .value) (vs'.map .value) := by
  induction h with
  | nil => exact .nil
  | cons hv _ ih => exact .cons (.value hv) ih

/-- Results that match under a renumbering are equal up to that renumbering. -/
theorem ResultsMatch.eq_map_renumber {n m : ListId} {channel channel' : Channel}
    {r r' : Except Failure Value}
    (h : ResultsMatch (.renumbering n m channel channel')
      (Value.Matches (.renumbering n m channel channel')) r r') :
    r' = r.map (Value.map (ListId.renumber n m) id) := by
  cases h with
  | @ok v v' hv =>
    have hmap : v.map (ListId.renumber n m) id = v'.map id id :=
      hv.map_eq (fun _ _ h => h) fun _ _ h => h
    rw [Except.map, hmap, Value.map_id]
  | @error e e' he =>
    rw [Except.map, he.eq fun h => h]

/-- A call whose arguments are values binds nothing for its caller. -/
theorem Func.env_run (interner : Interner) (f : Func) (args : List Value) (line : Line)
    (s : State) : (f.run interner (args.map .value) line s).2.env = s.env := by
  have h : Env.Grows _ s.env (Task.run interner (.call f (args.map .value) line) s).2.env :=
    Task.env_grows _ s
  rw [Task.run_call] at h
  refine h.eq_of_forall_not fun x hx => ?_
  obtain ⟨_, hmem, hx⟩ := List.mem_flatMap.1 hx
  obtain ⟨v, -, rfl⟩ := List.mem_map.1 hmem
  cases hx

theorem Func.ends_run (interner : Interner) (f : Func) (args : List Argument) (line : Line)
    (s : State) :
    Ends interner ((Task.call f args line).plan interner) s (f.run interner args line s).1
      (f.run interner args line s).2 := by
  rw [← Task.run_call]
  exact Task.ends_run _ s

/-- A call whose arguments have been numbered results in something that has been numbered. -/
theorem Func.listsNumbered_run (interner : Interner) (f : Func) {args : List Value} (line : Line)
    {s : State} (hs : s.ListsNumbered) (hargs : Value.AllListsBelow s.lists.next args) :
    s.lists.next ≤ (f.run interner (args.map .value) line s).2.lists.next ∧
      ∀ v, (f.run interner (args.map .value) line s).1 = .ok v →
        v.ListsBelow (f.run interner (args.map .value) line s).2.lists.next := by
  have htask (n : ListId) (hn : s.lists.next ≤ n) :
      Task.Matches (.below n) (.call f (args.map .value) line) (.call f (args.map .value) line) :=
    .call rfl (Argument.forall₂_matches_value (Value.all_matches_below_iff.2 (hargs.mono hn))) rfl
  have h := Task.listsNumbered interner htask hs
  rw [Task.run_call] at h
  exact ⟨h.1, fun v hv => (h.2.2 v hv).listsBelow⟩

/-- **The same call from the state that it left.**  That state matches the one where the first call
started, so the calls go hand in hand. -/
theorem Func.run_again (interner : Interner) (f : Func) {args : List Value} (line : Line)
    {s t : State} (hs : s.ListsNumbered) (hargs : Value.AllListsBelow s.lists.next args)
    (ht : (f.run interner (args.map .value) line s).2 = t) :
    let M := Matching.renumbering s.lists.next t.lists.next s.channel t.channel
    ResultsMatch M (Value.Matches M) (f.run interner (args.map .value) line s).1
        (f.run interner (args.map .value) line t).1 ∧
      State.Matches M t (f.run interner (args.map .value) line t).2 := by
  intro M
  have hlists := (f.listsNumbered_run interner line hs hargs).1
  have henv := f.env_run interner args line s
  have hstack := (f.ends_run interner (args.map .value) line s).stack_eq
  rw [ht] at hlists henv hstack
  have hself (id : ListId) (h : id < s.lists.next) : M.list id id := ListId.renumber_of_lt h
  have hst : State.Matches M s t :=
    { env := by
        rw [henv]
        exact .of_listsBelow (fun h => h) hself (fun _ => rfl) hs
      limit := by rw [hstack]
      depth := by rw [hstack]
      channel := ⟨"", (Channel.write_empty _).symm, (Channel.write_empty _).symm⟩
      lists := ⟨Nat.le_refl _, ListId.renumber_self⟩ }
  have hvalues : List.Forall₂ (Value.Matches M) args args :=
    Value.Matches.of_allListsBelow hself (fun _ => rfl) hargs
  have hcall : Task.Matches M (.call f (args.map .value) line) (.call f (args.map .value) line) :=
    .call rfl (Argument.forall₂_matches_value hvalues) rfl
  have h := hcall.hand_in_hand (Matching.renumbering_lawful interner hlists) hst
  rw [Task.run_call, ht] at h
  exact h

/-- **Calls can be repeated.**  A call whose arguments are values, made twice in a row from whatever
state in which lists are numbered, binds nothing for its caller, leaves the active calls as they
were, and writes the same text twice.  The lists that the first result holds were numbered before
the second call.  The two results are the same failure, or values that differ only in the numbers of
the lists that the calls made: these correspond one to one, while lists from before are the same. -/
theorem calls_repeatable (i : Interpreter) (env : Env) (f : Func) (args : List Value) (line : Line)
    (henv : env.ListsBelow i.state.lists.next)
    (hargs : Value.AllListsBelow i.state.lists.next args) :
    let call := f.run i.interner (args.map .value) line
    let first := i.within env call
    let second := first.2.2.within env call
    let start := i.state.lists.next
    let middle := first.2.2.state.lists.next
    let stop := second.2.2.state.lists.next
    (first.2.1 = env ∧ second.2.1 = env) ∧
    (first.2.2.state.stack = i.state.stack ∧ second.2.2.state.stack = i.state.stack) ∧
    (∃ text : String, first.2.2.channel = i.channel.write text ∧
      second.2.2.channel = first.2.2.channel.write text) ∧
    (∀ v, first.1 = .ok v → v.ListsBelow middle) ∧
    ∃ other : ListId → ListId, Function.Injective other ∧ (∀ id < start, other id = id) ∧
      Set.BijOn other (Set.Ico start middle) (Set.Ico middle stop) ∧
      second.1 = first.1.map (Value.map other id) := by
  intro call first second start middle stop
  let s : State := { i.state with env := env }
  let t : State := (call s).2
  -- the second call starts from what the first one left, with the caller's environment again
  let u : State := (call { t with env := env }).2
  have henv' : t.env = env := f.env_run i.interner args line s
  have hstack : t.stack = i.state.stack := (f.ends_run i.interner _ line s).stack_eq
  have hstack' : u.stack = t.stack := (f.ends_run i.interner _ line { t with env := env }).stack_eq
  obtain ⟨hle, hnumbered⟩ := f.listsNumbered_run i.interner line (s := s) henv hargs
  obtain ⟨hr, hu⟩ := f.run_again i.interner line (s := s) (t := { t with env := env }) henv hargs
    (by rw [← henv'])
  obtain ⟨-, hstop⟩ := hu.lists
  refine ⟨⟨henv', f.env_run ..⟩, ⟨hstack, hstack'.trans hstack⟩, hu.channel, hnumbered,
    ListId.renumber start middle, ListId.renumber_injective hle,
    fun id hid => ListId.renumber_of_lt hid, ?_, hr.eq_map_renumber⟩
  rw [show stop = ListId.renumber start middle middle from hstop.symm]
  exact ListId.renumber_bijOn hle

/-- A function that shows a list and returns it together with a new one. -/
theorem calls_repeatable_new_lists :
    let f : Func := ⟨⟨0, ⟨⟨1⟩, 1⟩, [⟨⟨2⟩, 1⟩],
      [.print (.variable ⟨⟨2⟩, 2⟩), .return (.list [.variable ⟨⟨2⟩, 3⟩, .list []])]⟩, ""⟩
    let i := Interpreter.new .new .interpret .waray .empty (.buffer "") none ⟨1⟩
    let args : List Value := [.list 0 []]
    let call := f.run i.interner (args.map .value) 4
    let first := i.within .empty call
    let second := first.2.2.within .empty call
    Env.empty.ListsBelow i.state.lists.next ∧ Value.AllListsBelow i.state.lists.next args ∧
      first.1 = .ok (.list 2 [.list 0 [], .list 1 []]) ∧
      second.1 = .ok (.list 4 [.list 0 [], .list 3 []]) ∧
      ∃ other : ListId → ListId, Function.Injective other ∧ (∀ id < 1, other id = id) ∧
        second.1 = first.1.map (Value.map other id) := by
  intro f i args call first second
  have henv : Env.empty.ListsBelow i.state.lists.next := Env.listsBelow_empty _
  have hargs : Value.AllListsBelow i.state.lists.next args := ⟨⟨Nat.zero_lt_one, trivial⟩, trivial⟩
  obtain ⟨-, -, -, -, other, hinj, hold, -, heq⟩ := calls_repeatable i .empty f args 4 henv hargs
  exact ⟨henv, hargs, rfl, rfl, other, hinj, hold, heq⟩

end BindOnce
