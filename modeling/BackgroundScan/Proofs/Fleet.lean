import BackgroundScan.Proofs.StoreActions

/-!
# Several clients at one store

A fleet is any number of clients that share a store. At each step a new client joins,
or one of the clients acts; the history of a run keeps for every action the client as it
was before, and the answer.

1. `Fleet.step` and `Fleet.run`: steps and runs.
2. `run_induction`: what every action of a client preserves holds after a run, also of
   what is computed along the history. `run_clients`: the same of the clients.
   `run_history`: what holds of every action with its answer.
3. `run_store`: the store that a run leaves is the one that was asked for everything
   that the history asks.
-/

namespace BackgroundScan

/-! ## 1. Steps and runs -/

/-- Clients that share a store. -/
structure Fleet where
  clients : List Client
  store : Store

/-- One step of a fleet. -/
inductive FleetAction
  /-- A new client joins. -/
  | join (settings : Settings)
  /-- The client at a place acts; nothing happens if there is none. -/
  | act (place : Nat) (action : SessionAction)

/-- An action of a client, as it was then, with the answer. -/
structure Exchange where
  client : Client
  action : SessionAction
  answer : SessionAnswer

/-- What an action asked of the store. -/
def Exchange.asked (e : Exchange) : List StoreAction := e.client.asks e.action

namespace Client

/-- A session of the client that begins at a store. -/
def sessionAt (c : Client) (s : Store) : Session := ⟨c, s, []⟩

/-- The action of a client at a store with its answer. -/
def exchange (c : Client) (s : Store) (action : SessionAction) : Exchange :=
  ⟨c, action, ((c.sessionAt s).step action).1⟩

end Client

namespace Fleet

/-- Carries out a step. -/
def step (f : Fleet) : FleetAction → List Exchange × Fleet
  | .join settings => ([], { f with clients := f.clients ++ [.new settings] })
  | .act place action =>
    match f.clients[place]? with
    | none => ([], f)
    | some c =>
      let after := ((c.sessionAt f.store).step action).2
      ([c.exchange f.store action], ⟨f.clients.set place after.client, after.store⟩)

/-- Carries out one step after the other. -/
def run (f : Fleet) : List FleetAction → List Exchange × Fleet
  | [] => ([], f)
  | action :: rest =>
    let (first, f) := f.step action
    let (history, f) := f.run rest
    (first ++ history, f)

end Fleet

/-! ## 2. Runs preserve what actions preserve -/

/-- If every action of a client takes stores that are related to something to stores that
are related to what the exchange makes of it, a run does so too. -/
theorem run_induction {τ : Type} {R : Store → τ → Prop} {next : τ → Exchange → τ}
    (hstep : ∀ c s action t, R s t →
      R ((Client.sessionAt c s).step action).2.store (next t (c.exchange s action)))
    (f : Fleet) (actions : List FleetAction) {t : τ} (h : R f.store t) :
    R (f.run actions).2.store ((f.run actions).1.foldl next t) := by
  induction actions generalizing f t with
  | nil => exact h
  | cons action rest ih =>
    -- a step adds one exchange to the history, or none where no client acted
    have hfirst : R (f.step action).2.store ((f.step action).1.foldl next t) := by
      cases action with
      | join settings => exact h
      | act place action =>
        simp only [Fleet.step]
        cases f.clients[place]? with
        | none => exact h
        | some c => exact hstep c f.store action t h
    have hrest := ih (f.step action).2 hfirst
    rw [← List.foldl_append] at hrest
    exact hrest

/-- If every new client has a property, and every action keeps it, all clients have it
after a run. -/
theorem run_clients {P : Client → Prop} (hnew : ∀ settings, P (.new settings))
    (hstep : ∀ c s action, P c → P ((Client.sessionAt c s).step action).2.client)
    (f : Fleet) (actions : List FleetAction) (h : ∀ c ∈ f.clients, P c) :
    ∀ c ∈ (f.run actions).2.clients, P c := by
  induction actions generalizing f with
  | nil => exact h
  | cons action rest ih =>
    apply ih (f.step action).2
    cases action with
    | join settings =>
      intro c hc
      rcases List.mem_append.mp hc with hc | hc
      · exact h c hc
      · obtain rfl := List.mem_singleton.mp hc
        exact hnew settings
    | act place action =>
      simp only [Fleet.step]
      cases hplace : f.clients[place]? with
      | none => exact h
      | some acting =>
        intro c hc
        rcases List.mem_or_eq_of_mem_set hc with hc | rfl
        · exact h c hc
        · exact hstep acting f.store action (h acting (List.mem_of_getElem? hplace))

/-- What holds of every action of a client with its answer holds along a history. -/
theorem run_history {P : Exchange → Prop} (h : ∀ c s action, P (Client.exchange c s action))
    (f : Fleet) (actions : List FleetAction) : ∀ e ∈ (f.run actions).1, P e := by
  induction actions generalizing f with
  | nil => exact fun e he => absurd he List.not_mem_nil
  | cons action rest ih =>
    intro e he
    rcases List.mem_append.mp he with hfirst | hrest
    · cases action with
      | join settings => exact absurd hfirst List.not_mem_nil
      | act place action =>
        cases hplace : f.clients[place]? with
        | none =>
          simp only [hplace] at hfirst
          exact absurd hfirst List.not_mem_nil
        | some c =>
          simp only [hplace] at hfirst
          obtain rfl := List.mem_singleton.mp hfirst
          exact h c f.store action
    · exact ih (f.step action).2 e hrest

theorem run_cons (f : Fleet) (action : FleetAction) (rest : List FleetAction) :
    f.run (action :: rest) =
      ((f.step action).1 ++ ((f.step action).2.run rest).1, ((f.step action).2.run rest).2) :=
  rfl

/-- A run goes on where the run of its first part has led. -/
theorem run_append (f : Fleet) (before after : List FleetAction) :
    f.run (before ++ after) =
      ((f.run before).1 ++ ((f.run before).2.run after).1, ((f.run before).2.run after).2) := by
  induction before generalizing f with
  | nil => rfl
  | cons action rest ih =>
    rw [List.cons_append, run_cons, run_cons, ih, List.append_assoc]

/-! ## 3. The store of a run -/

/-- The store that a run leaves is the one that was asked for everything in the
history. -/
theorem run_store (f : Fleet) (actions : List FleetAction) :
    (f.run actions).2.store = f.store.acts ((f.run actions).1.flatMap Exchange.asked) := by
  have hrun : (f.run actions).2.store =
      (f.run actions).1.foldl (fun s e => s.acts e.asked) f.store :=
    run_induction (R := fun s t => s = t)
      (fun c s action t h => by
        rw [step_store, h]
        rfl)
      f actions rfl
  rw [hrun]
  generalize (f.run actions).1 = history
  generalize f.store = s
  induction history generalizing s with
  | nil => rfl
  | cons e rest ih =>
    rw [List.foldl_cons, List.flatMap_cons, ih, ← StoreActionLemmas.acts_append]

end BackgroundScan
