import Mathlib.Data.List.Chain
import Mathlib.Data.List.Count
import Mathlib.Logic.Function.Basic

/-! A path-vector protocol seen from one destination: every node selects at
    most one path to the origin `o` and announces what it selects. -/

namespace PathVector

/-- A selected path, the neighbour it came from, and whether that neighbour has
    been lost since. -/
structure Entry (V : Type*) where
  hop : V
  path : List V
  stale : Bool := false
  deriving DecidableEq

inductive Item (V : Type*) where
  | add (path : List V)
  | remove
  deriving DecidableEq

/-- `received a z` and `queue a z` are what `z` has and has not yet processed of
    the items that `a` sent it. -/
@[ext]
structure State (V : Type*) where
  announced : Bool
  view : V → Option (Entry V)
  received : V → V → List (Item V)
  queue : V → V → List (Item V)

def State.initial (V : Type*) : State V := ⟨false, fun _ => none, fun _ _ => [], fun _ _ => []⟩

variable {V : Type*}

variable [DecidableEq V]

/-- Split horizon: an entry is not told to its own next hop, nor to a node on
    its path. -/
def Entry.Exportable (e : Entry V) (z : V) : Prop := e.hop ≠ z ∧ z ∉ e.path

/-- The selection rule of `n` for an item from `a`: shorter paths win, a stale
    entry loses to any path, and a removal clears whatever is selected. -/
def receive (n a : V) (old : Option (Entry V)) : Item V → Option (Entry V)
  | .add path =>
    if n ∈ path then old
    else
      match old with
      | some e => if path.length < e.path.length ∨ e.stale = true then some ⟨a, path, false⟩ else some e
      | none => some ⟨a, path, false⟩
  | .remove => none

/-- An item that a node's import policy turns down has no effect. -/
def receiveIf (accepted : Bool) (n a : V) (old : Option (Entry V)) (item : Item V) : Option (Entry V) :=
  if accepted then receive n a old item else old

/-- The item that tells others of a new selection. -/
def announcement (n : V) (old new : Option (Entry V)) : Option (Item V) :=
  if new = old then none
  else
    match new with
    | some e => some (.add (n :: e.path))
    | none => some .remove

/-- The entry whose export guards a change of selection consults. -/
def guarding (old new : Option (Entry V)) : Option (Entry V) := new <|> old

namespace State

/-- `n` sends `item` to `rs`, once for each occurrence. -/
def post (s : State V) (n : V) (rs : List V) (item : Item V) : State V :=
  { s with queue := fun a z => s.queue a z ++ if a = n then List.replicate (rs.count z) item else [] }

def setView (s : State V) (n : V) (new : Option (Entry V)) : State V :=
  { s with view := Function.update s.view n new }

def change (s : State V) (n : V) (new : Option (Entry V)) (rs : List V) : State V :=
  match announcement n (s.view n) new with
  | some item => (s.setView n new).post n rs item
  | none => s

/-- `z` takes the `i`-th waiting item from `a`. -/
def pop (s : State V) (a z : V) (i : Nat) (item : Item V) : State V :=
  { s with
    received := fun b y => if b = a ∧ y = z then s.received b y ++ [item] else s.received b y
    queue := fun b y => if b = a ∧ y = z then (s.queue b y).eraseIdx i else s.queue b y }

/-- Everything `a` ever sent `z`, in order, when items are taken in order. -/
def log (s : State V) (a z : V) : List (Item V) := s.received a z ++ s.queue a z

end State

/-- No item is under way. -/
def State.Quiet (s : State V) : Prop := ∀ a z, s.queue a z = []

/-! ### Steps -/

/-- The steps, with the recipients of what they announce. -/
inductive Label (V : Type*) where
  | originate (rs : List V)
  | retract (rs : List V)
  | deliver (a z : V) (i : Nat) (accepted : Bool) (rs : List V)
  | refresh (n : V) (stale : Bool) (rs : List V)
  | drop (n : V) (rs : List V)

/-- The origin announces or retracts; a node processes an item, repeats its
    selection (possibly marking it stale), or drops it. -/
inductive Step (o : V) (s : State V) : Label V → State V → Prop where
  | originate (rs : List V) : Step o s (.originate rs) ({ s with announced := true }.post o rs (.add [o]))
  | retract (rs : List V) : Step o s (.retract rs) ({ s with announced := false }.post o rs .remove)
  | deliver {a z : V} {i : Nat} (accepted : Bool) {rs : List V} {item : Item V}
      (hitem : (s.queue a z)[i]? = some item)
      (hguard : ∀ e, guarding (s.view z) (receiveIf accepted z a (s.view z) item) = some e →
        ∀ r ∈ rs, e.Exportable r) :
      Step o s (.deliver a z i accepted rs)
        ((s.pop a z i item).change z (receiveIf accepted z a (s.view z) item) rs)
  | refresh {n : V} {e : Entry V} (stale : Bool) {rs : List V} (hview : s.view n = some e)
      (hstale : e.stale = true → stale = true) (hguard : ∀ r ∈ rs, e.Exportable r) :
      Step o s (.refresh n stale rs) ((s.setView n (some { e with stale })).post n rs (.add (n :: e.path)))
  | drop {n : V} {e : Entry V} {rs : List V} (hview : s.view n = some e)
      (hguard : ∀ r ∈ rs, e.Exportable r) : Step o s (.drop n rs) (s.change n none rs)

/-- The states of all runs whose steps are all `Allowed`. -/
inductive Run (o : V) (Allowed : State V → Label V → Prop) : State V → Prop where
  | start : Run o Allowed (State.initial V)
  | step {s s' : State V} {l : Label V} (h : Run o Allowed s) (hallowed : Allowed s l) (hstep : Step o s l s') :
      Run o Allowed s'

/-- A property that holds at the start and that every allowed step preserves
    holds throughout. -/
theorem Run.invariant {o : V} {Allowed : State V → Label V → Prop} {I : State V → Prop}
    (hstart : I (State.initial V))
    (hstep : ∀ s l s', I s → Allowed s l → Step o s l s' → I s') {s : State V} (h : Run o Allowed s) : I s := by
  induction h with
  | start => exact hstart
  | step _ hallowed hs ih => exact hstep _ _ _ ih hallowed hs

/-! ### Basic facts -/

/-- The outcomes of an item: no effect, a new selection, or a loss. -/
theorem receiveIf_cases (accepted : Bool) (n a : V) (old : Option (Entry V)) (item : Item V) :
    (receiveIf accepted n a old item = old ∧ (accepted = true → item = .remove → old = none)) ∨
      (∃ path, item = .add path ∧ n ∉ path ∧ receiveIf accepted n a old item = some ⟨a, path, false⟩) ∨
      (item = .remove ∧ receiveIf accepted n a old item = none) := by
  cases accepted with
  | false => exact .inl ⟨rfl, fun h => by cases h⟩
  | true =>
    cases item with
    | remove => exact .inr (.inr ⟨rfl, rfl⟩)
    | add path =>
      by_cases hloop : n ∈ path
      · exact .inl ⟨by simp [receiveIf, receive, hloop], fun _ h => by cases h⟩
      · cases old with
        | none => exact .inr (.inl ⟨path, rfl, hloop, by simp [receiveIf, receive, hloop]⟩)
        | some e =>
          by_cases hbetter : path.length < e.path.length ∨ e.stale = true
          · exact .inr (.inl ⟨path, rfl, hloop, by simp [receiveIf, receive, hloop, hbetter]⟩)
          · exact .inl ⟨by simp [receiveIf, receive, hloop, hbetter], fun _ h => by cases h⟩

/-- A selection gives way to a shorter path, or to any path when it is stale. -/
theorem receiveIf_replaces {accepted : Bool} {n a : V} {e e' : Entry V} {item : Item V}
    (h : receiveIf accepted n a (some e) item = some e') :
    e' = e ∨ ∃ path, item = .add path ∧ e' = ⟨a, path, false⟩ ∧
      (path.length < e.path.length ∨ e.stale = true) := by
  cases accepted with
  | false => exact .inl (Option.some.inj h).symm
  | true =>
    cases item with
    | remove => cases h
    | add path =>
      simp only [receiveIf, receive, if_true] at h
      split at h
      · exact .inl (Option.some.inj h).symm
      · split at h
        · rename_i hbetter
          exact .inr ⟨path, rfl, (Option.some.inj h).symm, hbetter⟩
        · exact .inl (Option.some.inj h).symm

/-- Only a removal that is let through empties a selection. -/
theorem receiveIf_empties {accepted : Bool} {n a : V} {e : Entry V} {item : Item V}
    (h : receiveIf accepted n a (some e) item = none) : accepted = true ∧ item = .remove := by
  obtain ⟨hkept, -⟩ | ⟨path, -, -, hput⟩ | ⟨hremove, -⟩ := receiveIf_cases accepted n a (some e) item
  · cases hkept.symm.trans h
  · cases hput.symm.trans h
  · refine ⟨?_, hremove⟩
    cases accepted with
    | true => rfl
    | false => cases h

theorem announcement_eq_none_iff {n : V} {old new : Option (Entry V)} :
    announcement n old new = none ↔ new = old := by
  unfold announcement
  by_cases h : new = old
  · simp [h]
  · cases new <;> simp [h]

namespace State

@[simp] theorem post_view (s : State V) (n : V) (rs : List V) (item : Item V) :
    (s.post n rs item).view = s.view := rfl

@[simp] theorem setView_view_self (s : State V) (n : V) (new : Option (Entry V)) :
    (s.setView n new).view n = new := by simp [setView]

theorem setView_view_of_ne (s : State V) {n z : V} (h : z ≠ n) (new : Option (Entry V)) :
    (s.setView n new).view z = s.view z := by simp [setView, h]

@[simp] theorem setView_eq_self (s : State V) (n : V) : s.setView n (s.view n) = s := by
  simp [setView]

@[simp] theorem pop_view (s : State V) (a z : V) (i : Nat) (item : Item V) : (s.pop a z i item).view = s.view := rfl

theorem change_view (s : State V) (n : V) (new : Option (Entry V)) (rs : List V) :
    (s.change n new rs).view = Function.update s.view n new := by
  unfold change
  split
  · rfl
  · rename_i hquiet
    rw [announcement_eq_none_iff.mp hquiet]
    simp

end State

end PathVector
