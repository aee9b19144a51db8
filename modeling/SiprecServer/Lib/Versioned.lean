import SiprecServer.Lib.Transducer

/-!
# Numbered updates of a state

Updates carry numbers and may be delivered out of order.  A state is respectful of the
numbers if the one it stores never falls and an update that comes late changes nothing;
its final value then depends on the updates that came in order alone.
-/

namespace SiprecServer.Lib.Versioned

open Lib.Transducer

variable {σ δ : Type}

structure Updates (σ δ : Type) where
  number : δ → Int
  stored : σ → Int
  apply : σ → δ → σ

namespace Updates

variable (updates : Updates σ δ)

def deliver (state : σ) (update : δ) : σ × List Empty := (updates.apply state update, [])

def note (_ : σ) (numbers : List Int) (update : δ) : List Int := updates.number update :: numbers

def isLate (numbers : List Int) (update : δ) : Bool := numbers.any (updates.number update < ·)

abbrev Deliveries (condition : σ × List Int → δ → Prop) (state : σ) (deliveries : List δ) : Prop :=
  Along (tracked updates.deliver updates.note) condition (state, []) deliveries

structure Respects (state : σ × List Int) (update : δ) : Prop where
  stored : updates.stored state.1 ≤ updates.stored (updates.apply state.1 update)
  late : updates.isLate state.2 update → updates.apply state.1 update = state.1

def inOrder : List Int → List δ → List δ
  | _, [] => []
  | numbers, update :: rest =>
    let later := inOrder (updates.number update :: numbers) rest
    if updates.isLate numbers update then later else update :: later

/-- Every delivery respects the numbers, and the final state is that of the updates that
came in order. -/
structure Respectful (state : σ) (deliveries : List δ) : Prop where
  steps : updates.Deliveries updates.Respects state deliveries
  final : (updates.inOrder [] deliveries).foldl updates.apply state =
    deliveries.foldl updates.apply state

variable {updates}

variable {state : σ} {deliveries : List δ} {numbers : List Int}

theorem foldl_inOrder
    (respects : Along (tracked updates.deliver updates.note) updates.Respects (state, numbers)
      deliveries) :
    (updates.inOrder numbers deliveries).foldl updates.apply state =
      deliveries.foldl updates.apply state := by
  induction deliveries generalizing state numbers with
  | nil => rfl
  | cons update rest ih =>
    have later : (updates.inOrder (updates.number update :: numbers) rest).foldl updates.apply
        (updates.apply state update) = rest.foldl updates.apply (updates.apply state update) :=
      ih respects.2
    rw [inOrder, List.foldl_cons]
    split
    case isTrue late =>
      have unchanged := respects.1.late late
      rw [unchanged] at later ⊢
      exact later
    case isFalse => exact later

theorem Respectful.of (steps : updates.Deliveries updates.Respects state deliveries) :
    updates.Respectful state deliveries :=
  ⟨steps, foldl_inOrder steps⟩

/-- The numbers are respected if every delivery is timely, and only then as long as the
clock moves on. -/
structure RespectedWhen (updates : Updates σ δ) (timely moves : σ × List Int → δ → Prop) :
    Prop where
  sufficient : ∀ state deliveries, updates.Deliveries timely state deliveries →
    updates.Respectful state deliveries
  necessary : ∀ state deliveries, updates.Deliveries moves state deliveries →
    updates.Respectful state deliveries → updates.Deliveries timely state deliveries

theorem RespectedWhen.of_steps {timely moves : σ × List Int → δ → Prop}
    (sufficient : ∀ state update, timely state update → updates.Respects state update)
    (necessary : ∀ state update, moves state update → updates.Respects state update →
      timely state update) : updates.RespectedWhen timely moves where
  sufficient state deliveries isTimely := by
    refine .of (isTimely.imp (fun _ => True) (fun _ _ _ _ => True.intro) ?_ True.intro)
    exact fun state update _ => sufficient state update
  necessary state deliveries advances respectful := by
    refine (advances.and respectful.steps).imp (fun _ => True) (fun _ _ _ _ => True.intro) ?_
      True.intro
    exact fun state update _ both => necessary state update both.1 both.2

theorem not_late_of_respects {τ : Type} (mark : σ → τ) (time : δ → τ) {update : δ}
    (marks : mark (updates.apply state update) = time update)
    (advances : mark state ≠ time update) (respects : updates.Respects (state, numbers) update) :
    updates.isLate numbers update = false := by
  rw [← Bool.not_eq_true]
  intro late
  have unchanged := respects.late late
  rw [unchanged] at marks
  exact advances marks

end Updates

end SiprecServer.Lib.Versioned
