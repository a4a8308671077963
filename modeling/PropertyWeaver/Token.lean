import PropertyWeaver.Fault

/-!
# Cancellation tokens

A host that wants a pass stopped cancels the pass's token, from outside and at any moment. A pass
notices only when it observes the token. To say at which moment the host acts, a token counts the
observations and symbol lookups still to come before it is cancelled.
-/

namespace PropertyWeaver

/-- The points of a pass at which the token is observed. -/
inductive Stage where
  /-- Before a declaration is considered. -/
  | discover
  /-- Before a declaration is read, and before each of its references. -/
  | transform
  /-- Before a symbol is looked up. -/
  | resolve
  /-- Before a property of an interface is copied. -/
  | project
  deriving DecidableEq

/-- The operation that a stage belongs to, as the host is told. -/
def Stage.operation : Stage → String
  | .discover => "discover"
  | .transform => "transform"
  | .resolve => "resolve_interface"
  | .project => "project_interface"

/-- A token, and when the host is going to cancel it. -/
structure Token where
  cancelled : Bool := false
  /-- The host cancels just before the observation that counts as one. -/
  observationsLeft : Option Nat := none
  /-- The host cancels during the lookup that counts as one. -/
  lookupsLeft : Option Nat := none
  deriving DecidableEq

namespace Token

/-- A token that is never cancelled. -/
def idle : Token := {}

/-- The token as the next observation finds it. -/
def observed (t : Token) : Token :=
  { t with
    cancelled := t.cancelled || t.observationsLeft == some 1
    observationsLeft := t.observationsLeft.map (· - 1) }

/-- The token after an operation has observed it; the operation stops if the token is cancelled. -/
def observe (t : Token) (operation : String) : Token × Except Fault Unit :=
  (t.observed, if t.observed.cancelled then .error (.cancelled operation) else .ok ())

/-- The token after the next lookup. -/
def lookedUp (t : Token) : Token :=
  { t with
    cancelled := t.cancelled || t.lookupsLeft == some 1
    lookupsLeft := t.lookupsLeft.map (· - 1) }

/-- The token after the host has cancelled it. -/
def cancel (t : Token) : Token := { t with cancelled := true }

@[simp] theorem observed_idle : idle.observed = idle := rfl

@[simp] theorem lookedUp_idle : idle.lookedUp = idle := rfl

/-! ## Cancelled tokens

Neither an observation nor a lookup takes a cancellation back.
-/

theorem cancelled_observed {t : Token} (h : t.cancelled = true) :
    t.observed.cancelled = true := by
  simp [observed, h]

theorem cancelled_lookedUp {t : Token} (h : t.cancelled = true) :
    t.lookedUp.cancelled = true := by
  simp [lookedUp, h]

/-! ## Tokens without a schedule -/

/-- The host is not going to cancel the token by itself. -/
structure Unscheduled (t : Token) : Prop where
  observationsLeft_eq : t.observationsLeft = none
  lookupsLeft_eq : t.lookupsLeft = none

theorem Unscheduled.cancel {t : Token} (h : t.Unscheduled) : t.cancel.Unscheduled :=
  ⟨h.observationsLeft_eq, h.lookupsLeft_eq⟩

theorem Unscheduled.observed_eq {t : Token} (h : t.Unscheduled) : t.observed = t := by
  obtain ⟨cancelled, observationsLeft, lookupsLeft⟩ := t
  obtain rfl : observationsLeft = none := h.observationsLeft_eq
  simp [observed]

theorem Unscheduled.lookedUp_eq {t : Token} (h : t.Unscheduled) : t.lookedUp = t := by
  obtain ⟨cancelled, observationsLeft, lookupsLeft⟩ := t
  obtain rfl : lookupsLeft = none := h.lookupsLeft_eq
  simp [lookedUp]

end Token

end PropertyWeaver
