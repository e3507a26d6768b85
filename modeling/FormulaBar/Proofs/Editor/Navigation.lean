import FormulaBar.Proofs.Editor.OnScreen
import Mathlib.Data.List.Induction

/-!
# FormulaBar.Proofs.Editor.Navigation — moving through the candidates counts modulo their number

While a list is shown, the popup can be moved on, back, or straight to a place, and late answers may come in, which it
ignores. After any run of such moves the place is told by a count alone (`Move.Counts`): from the last place that was
aimed at, each step on counts one and each step back minus one, modulo the length of the list. One move keeps the count
(`Move.Counts.made`, `Move.Counts.idle`), and so do all (`exists_moveAll_eq`). Of an empty list nothing is ever
highlighted. As programs that change the popup in place, the moves give the same popups (`Move.inPlace_run`).
-/

namespace FormulaBar

namespace Popup

/-- A popup that came about from a new one. -/
inductive Reachable : Popup → Prop
  | start (classifier : Classifier) (maxCandidates : Option Nat) : Reachable { classifier, maxCandidates }
  | observe {p} (h : Reachable p) (pending : String) : Reachable (p.observe pending).1
  | reopen {p} (h : Reachable p) (pending : String) : Reachable (p.reopen pending).1
  | hide {p} (h : Reachable p) : Reachable p.hide
  | next {p p'} (h : Reachable p) (hnext : p.next? = some p') : Reachable p'
  | previous {p p'} (h : Reachable p) (hprevious : p.previous? = some p') : Reachable p'
  | hover {p p'} (h : Reachable p) (index : Nat) (hhover : p.hover? index = some p') : Reachable p'
  | take {p p' selection} (h : Reachable p) (pending : String) (index : Option Nat)
      (htake : p.take? pending index = some (selection, p')) : Reachable p'
  | answered {p p'} (h : Reachable p) (t : Ticket) (answer : Lookup) (hresolve : p.resolve? t answer = some p') :
      Reachable p'

variable {p p' : Popup} {query : String} {candidates : List String} {active : Nat}

theorem sound_moveTo? {move : Nat → Nat → Option Nat} (hp : p.Sound) (hmove : InRange move)
    (h : p.moveTo? move = some p') : p'.Sound := by
  have hstep : Step p none p' := by simpa [h] using moveTo?_step (p := p) hmove
  exact hstep.sound hp

theorem Reachable.sound (h : Reachable p) : p.Sound := by
  induction h with
  | start classifier maxCandidates => exact sound_of_hidden rfl
  | @observe p _ pending ih => exact (observe_step p pending).sound ih
  | @reopen p _ pending ih => exact (reopen_step p pending).sound ih
  | hide _ _ => exact sound_of_hidden rfl
  | next _ hnext ih => exact sound_moveTo? ih (inRange_mod _) hnext
  | previous _ hprevious ih => exact sound_moveTo? ih (inRange_mod _) hprevious
  | hover _ index hhover ih => exact sound_moveTo? ih (inRange_to index) hhover
  | take _ pending index htake _ =>
    rw [take?_popup htake]
    exact sound_of_hidden rfl
  | answered _ t answer hresolve _ => exact sound_of_resolve? hresolve

/-! ### Moves -/

/-- What may be tried with a popup while it shows a list. -/
inductive Move
  | next
  | previous
  | hover (index : Nat)
  | resolve (ticket : Ticket) (answer : Lookup)

namespace Move

/-- The move is made in a list of `n` candidates. -/
def isMade (n : Nat) : Move → Bool
  | next | previous => 0 < n
  | hover index => index < n
  | resolve _ _ => false

/-- The place that a move aims at, if there is one in a list of `n` candidates. -/
def aim? (n : Nat) : Move → Option Nat
  | hover index => if index < n then some index else none
  | _ => none

def isNext : Move → Bool
  | next => true
  | _ => false

def isPrevious : Move → Bool
  | previous => true
  | _ => false

/-- The last place that was aimed at, or the place at the start. -/
def origin (n start : Nat) (moves : List Move) : Nat := (moves.filterMap (aim? n)).getLast?.getD start

/-- The moves since a place was aimed at, latest first. -/
def since (n : Nat) (moves : List Move) : List Move := moves.reverse.takeWhile fun m => (m.aim? n).isNone

/-- How many more steps lead on than back. -/
def advance (moves : List Move) : Int := moves.countP isNext - moves.countP isPrevious

variable {n start : Nat} {move : Move} {moves : List Move}

theorem origin_concat_of_aim {index : Nat} (h : move.aim? n = some index) :
    origin n start (moves ++ [move]) = index := by
  simp [origin, List.filterMap_append, h]

theorem since_concat_of_aim {index : Nat} (h : move.aim? n = some index) : since n (moves ++ [move]) = [] := by
  simp [since, h]

theorem origin_concat_of_none (h : move.aim? n = none) : origin n start (moves ++ [move]) = origin n start moves := by
  simp [origin, List.filterMap_append, h]

theorem since_concat_of_none (h : move.aim? n = none) : since n (moves ++ [move]) = move :: since n moves := by
  simp [since, h]

@[simp] theorem advance_nil : advance [] = 0 := rfl

@[simp] theorem advance_next (moves : List Move) : advance (next :: moves) = advance moves + 1 := by
  rw [advance, advance, List.countP_cons_of_pos rfl, List.countP_cons_of_neg Bool.false_ne_true]
  omega

@[simp] theorem advance_previous (moves : List Move) : advance (previous :: moves) = advance moves - 1 := by
  rw [advance, advance, List.countP_cons_of_neg Bool.false_ne_true, List.countP_cons_of_pos rfl]
  omega

theorem advance_of_neither (hnext : move.isNext = false) (hprevious : move.isPrevious = false) :
    advance (move :: moves) = advance moves := by
  rw [advance, advance, List.countP_cons_of_neg (by simp [hnext]), List.countP_cons_of_neg (by simp [hprevious])]

/-- Without an aim all moves count, from the start. -/
theorem origin_of_steps (h : ∀ m ∈ moves, m.aim? n = none) : origin n start moves = start := by
  rw [origin, List.filterMap_eq_nil_iff.2 h]
  rfl

theorem since_of_steps (h : ∀ m ∈ moves, m.aim? n = none) : since n moves = moves.reverse := by
  rw [since, List.takeWhile_eq_self_iff]
  intro m hm
  rw [h m (List.mem_reverse.1 hm)]
  rfl

@[simp] theorem advance_replicate_next (k : Nat) : advance (List.replicate k next) = k := by
  simp [advance, List.countP_replicate, isNext, isPrevious]

@[simp] theorem advance_replicate_previous (k : Nat) : advance (List.replicate k previous) = -k := by
  simp [advance, List.countP_replicate, isNext, isPrevious]

theorem advance_reverse (moves : List Move) : advance moves.reverse = advance moves := by
  rw [advance, advance, List.countP_reverse, List.countP_reverse]

/-- Where a move leads from a place in a list of `n` candidates, if it is made. -/
def place (n active : Nat) : Move → Nat
  | next => (active + 1) % n
  | previous => (active + n - 1) % n
  | hover index => index
  | resolve _ _ => active

end Move

/-- Tries a move; `none` when it changes nothing. -/
def move? (p : Popup) : Move → Option Popup
  | .next => p.next?
  | .previous => p.previous?
  | .hover index => p.hover? index
  | .resolve ticket answer => p.resolve? ticket answer

/-- The popup after a move was tried. -/
def move (p : Popup) (m : Move) : Popup := (p.move? m).getD p

/-- The popup after some moves were tried. -/
def moveAll (p : Popup) (moves : List Move) : Popup := moves.foldl move p

theorem moveAll_concat (p : Popup) (moves : List Move) (m : Move) :
    p.moveAll (moves ++ [m]) = (p.moveAll moves).move m := List.foldl_concat ..

/-- While a list is shown, a move that is made changes the place only. -/
theorem move?_of_showing (h : p.state = .showing query candidates active) (m : Move) :
    p.move? m = if m.isMade candidates.length then
      some { p with state := .showing query candidates (m.place candidates.length active) } else none := by
  cases m with
  | next | previous =>
    by_cases hempty : candidates = [] <;>
      simp [move?, next?, previous?, moveTo?, h, hempty, Move.isMade, Move.place, List.length_pos_iff]
  | hover index =>
    by_cases hindex : index < candidates.length <;> simp [move?, hover?, moveTo?, h, hindex, Move.isMade, Move.place]
  | resolve ticket answer => simp [move?, resolve?, h, Move.isMade]

/-! ### Moves in place -/

/-- Writes another place into the list that is shown, if its length allows that. -/
def stepInPlace (allowed : Nat → Bool) (target : Nat → Nat → Nat) : StateM Popup Bool := do
  let .showing query candidates active := (← get).state | return false
  if !allowed candidates.length then return false
  modify fun p => { p with state := .showing query candidates (target candidates.length active) }
  return true

/-- Compares a ticket with the awaited one, cleans the answer up, and shows it. -/
def resolveInPlace (ticket : Ticket) (answer : Lookup) : StateM Popup Bool := do
  let p ← get
  let current := match p.state with
    | .querying query generation => generation = ticket.generation && query = ticket.query
    | _ => false
  if !current then return false
  set { p with state := .showing ticket.query (p.candidates answer) 0 }
  return true

/-- A move as a program, with its answer: whether it was made. -/
def Move.inPlace : Move → StateM Popup Bool
  | next => stepInPlace (0 < ·) fun n active => (active + 1) % n
  | previous => stepInPlace (0 < ·) fun n active => (active + n - 1) % n
  | hover index => stepInPlace (index < ·) fun _ _ => index
  | resolve ticket answer => resolveInPlace ticket answer

theorem stepInPlace_run {allowed : Nat → Bool} {target : Nat → Nat → Nat} {step : Nat → Nat → Option Nat}
    (hstep : ∀ n active, step n active = if allowed n then some (target n active) else none) (p : Popup) :
    (stepInPlace allowed target).run p = ((p.moveTo? step).isSome, (p.moveTo? step).getD p) := by
  obtain ⟨classifier, max, state, generation⟩ := p
  cases state with
  | hidden | querying => rfl
  | showing query candidates active =>
    simp only [stepInPlace, moveTo?, hstep, StateT.run_bind, StateT.run_get, pure_bind]
    cases allowed candidates.length with
    | true => rfl
    | false => rfl

theorem resolveInPlace_run (ticket : Ticket) (answer : Lookup) (p : Popup) :
    (resolveInPlace ticket answer).run p = ((p.resolve? ticket answer).isSome, (p.resolve? ticket answer).getD p) := by
  obtain ⟨awaited, asked⟩ := ticket
  obtain ⟨classifier, max, state, generation⟩ := p
  cases state with
  | hidden | showing => rfl
  | querying query generation' =>
    by_cases hcurrent : query = asked ∧ generation' = awaited
    · obtain ⟨rfl, rfl⟩ := hcurrent
      simp only [resolve?, if_pos, resolveInPlace, StateT.run_bind, StateT.run_get, pure_bind, decide_true]
      rfl
    · have hanswer : (generation' = awaited && query = asked) = false := by
        simpa [and_comm] using hcurrent
      simp only [resolve?, PopupState.querying.injEq, if_neg hcurrent, resolveInPlace, StateT.run_bind,
        StateT.run_get, pure_bind, hanswer]
      rfl

theorem Move.inPlace_run (m : Move) (p : Popup) : m.inPlace.run p = ((p.move? m).isSome, p.move m) := by
  cases m with
  | next =>
    unfold inPlace move move? next?
    refine stepInPlace_run (fun n active => ?_) p
    cases n <;> rfl
  | previous =>
    unfold inPlace move move? previous?
    refine stepInPlace_run (fun n active => ?_) p
    cases n <;> rfl
  | hover index =>
    unfold inPlace move move? hover?
    refine stepInPlace_run (fun n active => ?_) p
    by_cases hindex : index < n <;> simp [hindex]
  | resolve ticket answer => exact resolveInPlace_run ticket answer p

/-- A move that answers `false` has left the popup as it was. -/
theorem Move.unchanged_of_false (p : Popup) (m : Move) (h : (m.inPlace.run p).1 = false) :
    (m.inPlace.run p).2 = p := by
  rw [inPlace_run] at h ⊢
  have hnone : p.move? m = none := Option.not_isSome_iff_eq_none.1 (Bool.eq_false_iff.1 h)
  rw [move, hnone]
  rfl

/-! ### Where moves lead -/

theorem move_of_showing (h : p.state = .showing query candidates active) {m : Move}
    (hmade : m.isMade candidates.length = true) :
    p.move m = { p with state := .showing query candidates (m.place candidates.length active) } := by
  rw [move, move?_of_showing h, if_pos hmade]
  rfl

theorem move_of_not_made (h : p.state = .showing query candidates active) {m : Move}
    (hmade : m.isMade candidates.length = false) : p.move m = p := by
  rw [move, move?_of_showing h, if_neg (by simp [hmade])]
  rfl

/-- In place, one after the other, each move answers whether the list allows it. -/
theorem mapM_inPlace_run (h : p.state = .showing query candidates active) (moves : List Move) :
    (moves.mapM Move.inPlace).run p = (moves.map (·.isMade candidates.length), p.moveAll moves) := by
  induction moves generalizing p active with
  | nil => rfl
  | cons m moves ih =>
    have hfirst : m.inPlace.run p = (m.isMade candidates.length, p.move m) := by
      rw [m.inPlace_run, move?_of_showing h]
      cases m.isMade candidates.length <;> rfl
    -- whether it was made or not, the same list is shown afterwards
    obtain ⟨now, hnow⟩ : ∃ now, (p.move m).state = .showing query candidates now := by
      cases hmade : m.isMade candidates.length with
      | false => exact ⟨active, by rw [move_of_not_made h hmade, h]⟩
      | true => exact ⟨_, by rw [move_of_showing h hmade]⟩
    rw [List.mapM_cons, StateT.run_bind, hfirst]
    show (do
      let answers ← (moves.mapM Move.inPlace)
      return m.isMade candidates.length :: answers : StateM Popup (List Bool)).run (p.move m) = _
    rw [StateT.run_bind, ih hnow]
    rfl

/-- Nothing can be highlighted in an empty list. -/
theorem moveAll_of_empty (h : p.state = .showing query [] active) (moves : List Move) : p.moveAll moves = p := by
  induction moves using List.reverseRecOn with
  | nil => rfl
  | append_singleton moves m ih =>
    have hmade : m.isMade 0 = false := by cases m <;> rfl
    rw [moveAll_concat, ih, move_of_not_made h hmade]

namespace Move

variable {n start now : Nat}

/-- The place is the one that the count from the origin gives. -/
def Counts (n start : Nat) (moves : List Move) (now : Nat) : Prop :=
  (now : Int) = (origin n start moves + advance (since n moves)) % n

theorem counts_nil (h : start < n) : Counts n start [] start := by
  have hmod : (start : Int) % n = start := Int.emod_eq_of_lt (Int.natCast_nonneg _) (Int.ofNat_lt.2 h)
  simp [Counts, origin, since, advance, hmod]

theorem Counts.next {moves : List Move} (h : Counts n start moves now) :
    Counts n start (moves ++ [.next]) ((now + 1) % n) := by
  rw [Counts, origin_concat_of_none rfl, since_concat_of_none rfl, advance_next, Int.natCast_emod, Int.natCast_add, h,
    Int.emod_add_emod, Int.add_assoc]
  rfl

/-- One step back is `n - 1` steps on. -/
theorem Counts.previous {moves : List Move} (h : Counts n start moves now) (hn : 0 < n) :
    Counts n start (moves ++ [.previous]) ((now + n - 1) % n) := by
  have hback : ((now + n - 1 : Nat) : Int) = now + (-1) + n := by omega
  rw [Counts, origin_concat_of_none rfl, since_concat_of_none rfl, advance_previous, Int.natCast_emod, hback,
    Int.add_emod_right, h, Int.emod_add_emod, Int.add_assoc]
  rfl

theorem counts_hover {index : Nat} (h : index < n) (moves : List Move) :
    Counts n start (moves ++ [.hover index]) index := by
  have haim : (hover index).aim? n = some index := if_pos h
  have hmod : (index : Int) % n = index := Int.emod_eq_of_lt (Int.natCast_nonneg _) (Int.ofNat_lt.2 h)
  rw [Counts, origin_concat_of_aim haim, since_concat_of_aim haim]
  simp [advance, hmod]

/-- A move that is not made counts nothing. -/
theorem Counts.idle {moves : List Move} {m : Move} (h : Counts n start moves now) (hn : 0 < n)
    (hmade : m.isMade n = false) : Counts n start (moves ++ [m]) now := by
  have hnone : m.aim? n = none := by
    cases m with
    | hover index => exact if_neg (by simpa [isMade] using hmade)
    | _ => rfl
  have hneither : m.isNext = false ∧ m.isPrevious = false := by
    cases m with
    | next | previous => simp [isMade, Nat.ne_of_gt hn] at hmade
    | hover _ | resolve _ _ => exact ⟨rfl, rfl⟩
  rw [Counts, origin_concat_of_none hnone, since_concat_of_none hnone, advance_of_neither hneither.1 hneither.2]
  exact h

theorem Counts.made {moves : List Move} {m : Move} (h : Counts n start moves now) (hn : 0 < n)
    (hmade : m.isMade n = true) : Counts n start (moves ++ [m]) (m.place n now) := by
  cases m with
  | next => exact h.next
  | previous => exact h.previous hn
  | hover index => exact counts_hover (of_decide_eq_true hmade) moves
  | resolve _ _ => cases hmade

end Move

/-- Moves change the place only, and lead where the count says. -/
theorem exists_moveAll_eq (h : p.state = .showing query candidates active) (hactive : active < candidates.length)
    (moves : List Move) :
    ∃ now, p.moveAll moves = { p with state := .showing query candidates now } ∧
      Move.Counts candidates.length active moves now := by
  have hn : 0 < candidates.length := Nat.zero_lt_of_lt hactive
  -- From the right end: the last aim decides where the count begins, so each new move changes it in one way.
  induction moves using List.reverseRecOn with
  | nil => exact ⟨active, by rw [← h]; rfl, Move.counts_nil hactive⟩
  | append_singleton moves m ih =>
    obtain ⟨now, hnow, hcounts⟩ := ih
    have hshowing : (p.moveAll moves).state = .showing query candidates now := by rw [hnow]
    rw [moveAll_concat]
    cases hmade : m.isMade candidates.length with
    | false => exact ⟨now, by rw [move_of_not_made hshowing hmade, hnow], hcounts.idle hn hmade⟩
    | true => exact ⟨_, by rw [move_of_showing hshowing hmade, hnow], hcounts.made hn hmade⟩

/-- Steps that lead round the list as often as they like lead back to where they began. -/
theorem moveAll_eq_self (h : p.state = .showing query candidates active) (hactive : active < candidates.length)
    {moves : List Move} (hsteps : ∀ m ∈ moves, m.aim? candidates.length = none)
    (hround : (candidates.length : Int) ∣ Move.advance moves) : p.moveAll moves = p := by
  obtain ⟨now, hnow, hcounts⟩ := exists_moveAll_eq h hactive moves
  obtain ⟨rounds, hrounds⟩ := hround
  rw [Move.Counts, Move.origin_of_steps hsteps, Move.since_of_steps hsteps, Move.advance_reverse, hrounds,
    Int.add_mul_emod_self_left, Int.emod_eq_of_lt (Int.natCast_nonneg _) (Int.ofNat_lt.2 hactive)] at hcounts
  rw [hnow, Int.ofNat_inj.1 hcounts, ← h]

/-- While a popup shows a list, moves and late answers leave query and list alone. The highlighted place counts from the
last place that was aimed at: every step on is one, every step back minus one, modulo the number of candidates. A step
is made if there is a candidate at all, an aim if there is one at that place, and a late answer is never taken; the
programs that change the popup in place answer just that, and one that answers `false` has changed nothing. Steps on
and back undo each other, and as many equal steps as there are candidates lead round. -/
theorem Reachable.place_counts (hp : Reachable p) (h : p.state = .showing query candidates active)
    (moves : List Move) :
    (∃ now, p.moveAll moves = { p with state := .showing query candidates now } ∧
      (0 < candidates.length → (now : Int) =
        (Move.origin candidates.length active moves + Move.advance (Move.since candidates.length moves)) %
          candidates.length)) ∧
    (moves.mapM Move.inPlace).run p = (moves.map (·.isMade candidates.length), p.moveAll moves) ∧
    (∀ m, ((p.moveAll moves).move? m).isSome = m.isMade candidates.length) ∧
    (∀ (p : Popup) (m : Move), (m.inPlace.run p).1 = false → (m.inPlace.run p).2 = p) ∧
    (candidates = [] → p.moveAll moves = p) ∧
    p.moveAll [.next, .previous] = p ∧ p.moveAll [.previous, .next] = p ∧
    p.moveAll (List.replicate candidates.length .next) = p ∧
    p.moveAll (List.replicate candidates.length .previous) = p := by
  have hrun := mapM_inPlace_run h moves
  rcases (hp.sound.listing _ _ _ h).active with hactive | ⟨rfl, -⟩
  · obtain ⟨now, hnow, hcounts⟩ := exists_moveAll_eq h hactive moves
    have hshowing : (p.moveAll moves).state = .showing query candidates now := by rw [hnow]
    refine ⟨⟨now, hnow, fun _ => hcounts⟩, hrun, fun m => ?_, Move.unchanged_of_false, ?_, ?_, ?_, ?_, ?_⟩
    · rw [move?_of_showing hshowing]
      split <;> simp_all
    · rintro rfl
      cases hactive
    · exact moveAll_eq_self h hactive (by simp [Move.aim?]) (by simp)
    · exact moveAll_eq_self h hactive (by simp [Move.aim?]) (by simp)
    · exact moveAll_eq_self h hactive (by simp [Move.aim?]) (by simp)
    · exact moveAll_eq_self h hactive (by simp [Move.aim?]) (by simp)
  -- A reachable popup may show an empty list, and its place is then no place in it.
  · have hstays (moves : List Move) : p.moveAll moves = p := moveAll_of_empty h moves
    refine ⟨⟨active, by rw [hstays, ← h], nofun⟩, hrun, fun m => ?_, Move.unchanged_of_false, fun _ => hstays moves,
      hstays _, hstays _, hstays _, hstays _⟩
    rw [hstays, move?_of_showing h]
    cases m <;> rfl

/-- The second of three candidates is aimed at, and then two steps lead on; an answer comes late, and the aim at a
fourth candidate fails. -/
theorem Reachable.place_counts_three :
    let p : Popup := { state := .showing "Sal" ["Sales", "Salary", "Salt"] 0, generation := 1 }
    Reachable p ∧
      p.moveAll [.previous, .hover 1, .next, .resolve ⟨1, "Sal"⟩ (.ok ["Salami"]), .hover 3, .next] =
        { p with state := .showing "Sal" ["Sales", "Salary", "Salt"] 0 } ∧
      p.moveAll [.next, .next, .next] = p := by
  intro p
  have hresolve : (({} : Popup).observe "Sal").1.resolve? ⟨1, "Sal"⟩ (.ok ["Sales", "Salary", "Salt"]) = some p := by
    decide +kernel
  have hp : Reachable p := ((Reachable.start {} none).observe "Sal").answered _ _ hresolve
  obtain ⟨⟨now, hnow, hcount⟩, -, -, -, -, -, -, hround, -⟩ := hp.place_counts rfl
    [.previous, .hover 1, .next, .resolve ⟨1, "Sal"⟩ (.ok ["Salami"]), .hover 3, .next]
  obtain rfl : now = 0 := Int.ofNat_inj.1 (hcount (by decide))
  exact ⟨hp, hnow, hround⟩

end Popup

end FormulaBar
