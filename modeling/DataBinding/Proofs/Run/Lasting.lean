import DataBinding.Binding.Build
import DataBinding.Command
import DataBinding.Proofs.Expr.Closed

/-!
# What host code keeps

If scripts and raises stay in a relation however they end (`Lasting`), so does everything that runs host code by the
way: bodies, members, expressions, compiled forms, jobs. Slots, boxes, jobs and the log are left to the host
(`World.Stores`); the relation is about the rest.
-/

namespace DataBinding

open Effect

/-- However it ends, the computation leads to a related state. -/
abbrev Lasts {ε σ α : Type} (R : σ → σ → Prop) (x : EStateM ε σ α) : Prop := Always R (fun _ => True) x

/-- Only slots, boxes, jobs, numbers and the log have changed. -/
structure World.Stores (w w' : World) : Prop where
  handlers : w'.handlers = w.handlers := by rfl
  direct : w'.direct = w.direct := by rfl
  bindings : w'.bindings = w.bindings := by rfl
  namedBindings : w'.namedBindings = w.namedBindings := by rfl
  namedHandlers : w'.namedHandlers = w.namedHandlers := by rfl
  listenings : w'.listenings = w.listenings := by rfl
  offers : ∀ o, (w'.object o).offersChanges = (w.object o).offersChanges := by exact fun _ => rfl
  exposes : ∀ o, (w'.object o).exposed = (w.object o).exposed := by exact fun _ => rfl
  next : w.next ≤ w'.next := by exact Nat.le_refl _

theorem World.stores_chains : Chains World.Stores where
  refl _ := {}
  trans h h' := {
    handlers := h'.handlers.trans h.handlers
    direct := h'.direct.trans h.direct
    bindings := h'.bindings.trans h.bindings
    namedBindings := h'.namedBindings.trans h.namedBindings
    namedHandlers := h'.namedHandlers.trans h.namedHandlers
    listenings := h'.listenings.trans h.listenings
    offers := fun o => (h'.offers o).trans (h.offers o)
    exposes := fun o => (h'.exposes o).trans (h.exposes o)
    next := Nat.le_trans h.next h'.next }

theorem World.Stores.handlersOf {w w' : World} (h : w.Stores w') (k : EventKey) : w'.handlersOf k = w.handlersOf k := by
  unfold World.handlersOf
  rw [h.handlers]

theorem World.stores_setSlot (w : World) (o s : String) (v : Value) : w.Stores (w.setSlot o s v) where
  offers o' := by
    unfold World.setSlot World.object
    by_cases h : o = o' <;> simp [h]
  exposes o' := by
    unfold World.setSlot World.object
    by_cases h : o = o' <;> simp [h]

section
variable {ε σ α β : Type} {R : σ → σ → Prop}

theorem Always.lasts {E : ε → Prop} {x : EStateM ε σ α} (h : Always R E x) : Lasts R x where
  ok := h.ok
  error s e s' hx := ⟨trivial, (h.error s e s' hx).2⟩

theorem Lasts.mono {R' : σ → σ → Prop} {x : EStateM ε σ α} (h : Lasts R x) (hR : ∀ {s s'}, R s s' → R' s s') :
    Lasts R' x where
  ok s a s' hx := hR (h.ok s a s' hx)
  error s e s' hx := ⟨trivial, hR (h.error s e s' hx).2⟩

theorem Lasts.after {R : World → World → Prop} {x : Effect α} (h : Lasts R x) (w : World) : R w (Effect.after (x w)) := by
  cases hx : x w with
  | ok a w' => exact h.ok w a w' hx
  | error e w' => exact (h.error w e w' hx).2

theorem lasts_of_after {R : World → World → Prop} {x : Effect α} (h : ∀ w, R w (Effect.after (x w))) : Lasts R x where
  ok w a w' hx := by
    have hw := h w
    rwa [hx] at hw
  error w e w' hx := by
    have hw := h w
    rw [hx] at hw
    exact ⟨trivial, hw⟩

/-- A computation that always gives a value is looked at there. -/
theorem lasts_of_returns {R : World → World → Prop} {x : Effect α} (h : ∀ w, ∃ a w', x w = .ok a w' ∧ R w w') :
    Lasts R x := by
  apply lasts_of_after
  intro w
  obtain ⟨a, w', hx, hr⟩ := h w
  rwa [hx]

theorem lasts_attempt {R : World → World → Prop} {x : Effect α} (h : Lasts R x) : Lasts R (attempt x) where
  ok w a w' ha := by
    unfold attempt at ha
    cases hx : x w with
    | ok b w₁ =>
      rw [hx] at ha
      cases ha
      exact h.ok w b w' hx
    | error e w₁ =>
      rw [hx] at ha
      cases e with
      | failed e =>
        cases ha
        exact (h.error w _ w' hx).2
      | exhausted => cases ha
  error w e w' ha := by
    unfold attempt at ha
    cases hx : x w with
    | ok b w₁ =>
      rw [hx] at ha
      cases ha
    | error e' w₁ =>
      rw [hx] at ha
      cases e' with
      | failed e => cases ha
      | exhausted =>
        cases ha
        exact h.error w _ w' hx

theorem lasts_ok {R : World → World → Prop} (hR : Chains R) (r : Except Error α) : Lasts R (Effect.ofExcept r) :=
  (always_except hR r).lasts

theorem lasts_forM (hR : Chains R) {x : α → EStateM ε σ PUnit} {l : List α} (h : ∀ a ∈ l, Lasts R (x a)) :
    Lasts R (l.forM x) := by
  induction l with
  | nil => exact always_pure hR _
  | cons a l ih =>
    exact always_bind hR (h a List.mem_cons_self) fun _ => ih fun b hb => h b (List.mem_cons_of_mem _ hb)

theorem lasts_nested {R : World → World → Prop} (hR : Chains R) (hdepth : ∀ (w : World) d, R w { w with depth := d })
    {limit : Option Nat} {x : Effect Unit} (h : Lasts R x) : Lasts R (nested limit x) := by
  constructor
  · intro w a w' hx
    unfold nested at hx
    split at hx
    · cases hx
    · cases hr : x { w with depth := w.depth + 1 } with
      | ok b w₁ =>
        rw [hr] at hx
        cases hx
        exact hR.trans (hdepth w _) (hR.trans (h.ok _ _ _ hr) (hdepth w₁ _))
      | error e w₁ =>
        rw [hr] at hx
        cases hx
  · intro w e w' hx
    unfold nested at hx
    split at hx
    · cases hx
      exact ⟨trivial, hR.refl w⟩
    · cases hr : x { w with depth := w.depth + 1 } with
      | ok b w₁ =>
        rw [hr] at hx
        cases hx
      | error e' w₁ =>
        rw [hr] at hx
        cases hx
        exact ⟨trivial, hR.trans (hdepth w _) (hR.trans (h.error _ _ _ hr).2 (hdepth w₁ _))⟩

end

/-- Scripts and raises stay in the relation. -/
structure Host.Lasting (host : Host) (R : World → World → Prop) : Prop where
  chains : Chains R
  stores : ∀ {w w'}, w.Stores w' → R w w'
  script : ∀ acts, Lasts R (host.perform (.script acts))
  raise : ∀ k args, Lasts R (host.raise k args)
  fire : ∀ tag, Lasts R (host.fire tag)

theorem Host.lasting_of_perform {host : Host} {R : World → World → Prop} (hR : Chains R)
    (hs : ∀ {w w' : World}, w.Stores w' → R w w') (hp : ∀ a, Lasts R (host.perform a)) : host.Lasting R := by
  have hrespond (args : EventArgs) (g : Handler) : Lasts R (g.respond host args) := by
    obtain ⟨n, payload, response⟩ := g
    cases response with
    | always a => exact hp a
    | onProperty name a =>
      unfold Handler.respond
      simp only
      split
      · exact hp a
      · exact always_pure hR _
    | report name acts =>
      refine always_bind hR (always_modify fun w => hs {}) fun _ => ?_
      unfold Host.run
      split
      · exact always_pure hR _
      · exact hp (.script acts)
  have hdepth (w : World) (d : Nat) : R w { w with depth := d } := hs {}
  constructor
  · exact hR
  · exact hs
  · exact fun acts => hp (.script acts)
  · exact fun k args => lasts_nested hR hdepth (always_get hR fun w => lasts_forM hR fun g _ => hrespond args g)
  · exact fun tag => lasts_nested hR hdepth (always_get hR fun w => lasts_forM hR fun g _ => hrespond .none g)

namespace Host.Lasting

variable {host : Host} {R : World → World → Prop} {α β : Type}

section
variable (h : host.Lasting R)
include h

theorem pure (a : α) : Lasts R (Pure.pure a : Effect α) := always_pure h.chains a

theorem fail (e : Error) : Lasts R (Effect.fail e : Effect α) := always_throw h.chains trivial

theorem except (r : Except Error α) : Lasts R (Effect.ofExcept r) := lasts_ok h.chains r

theorem seq {x : Effect α} {f : α → Effect β} (hx : Lasts R x) (hf : ∀ a, Lasts R (f a)) : Lasts R (x >>= f) :=
  always_bind h.chains hx hf

theorem world {f : World → Effect α} (hf : ∀ w, Lasts R (f w)) : Lasts R (get >>= f) := always_get h.chains hf

theorem change {f : World → World} (hf : ∀ w : World, w.Stores (f w)) : Lasts R (modify f : Effect Unit) :=
  always_modify fun w => h.stores (hf w)

theorem tell (line : String) : Lasts R (Effect.tell line) := h.change fun _ => {}

theorem check {c : Prop} [Decidable c] {e : Error} {f : PUnit → Effect β} (hf : Lasts R (f ())) :
    Lasts R (if c then Effect.fail e >>= f else f ()) := by
  by_cases hc : c
  · rw [if_pos hc]
    exact h.seq (h.fail e) fun _ => hf
  · rw [if_neg hc]
    exact hf

/-! ## Bodies and members -/

theorem run (acts : List Act) : Lasts R (host.run acts) := by
  unfold Host.run
  by_cases ha : acts.isEmpty = true
  · rw [if_pos ha]
    exact h.pure ()
  · rw [if_neg ha]
    exact h.script acts

theorem notify (o : ObjectRef) (property : String) : Lasts R (host.notify o property) :=
  h.seq (h.tell _) fun _ => h.raise _ _

theorem raiseNamed (o : ObjectRef) (e : EventName) : Lasts R (host.raiseNamed o e) :=
  h.seq (h.tell _) fun _ => h.raise _ _

theorem setSlot (inPlace : Bool) (r : Value) (name : String) (v : Value) : Lasts R (Body.setSlot inPlace r name v) := by
  unfold Body.setSlot
  split
  · exact h.pure _
  · split
    · exact h.seq (h.change fun w => w.stores_setSlot _ _ _) fun _ => h.pure _
    · exact h.pure _
  · exact h.pure _

theorem setSlots (types : TypeTable) (inPlace : Bool) (args : List Value) (r : Value) (sets : List (String × Operand)) :
    Lasts R (Body.setSlots types inPlace args r sets) := by
  induction sets generalizing r with
  | nil => exact h.pure _
  | cons s rest ih => exact h.world fun w => h.seq (h.setSlot _ _ _ _) ih

theorem optional {α : Type} {c : Prop} [Decidable c] {x : Effect PUnit} {y : PUnit → Effect α} (hx : Lasts R x)
    (hy : Lasts R (y ())) : Lasts R (if c then x >>= y else y ()) := by
  by_cases hc : c
  · rw [if_pos hc]
    exact h.seq hx fun _ => hy
  · rw [if_neg hc]
    exact hy

theorem body (b : Body) (label : String) (inPlace : Bool) (r : Value) (args : List Value) :
    Lasts R (b.run host label inPlace r args) := by
  unfold Body.run
  apply h.optional (h.tell _)
  refine h.seq (h.run _) fun _ => h.seq (h.setSlots _ _ _ _ _) fun r' => ?_
  cases b.failure with
  | some message => exact h.fail _
  | none => exact h.world fun w => h.pure _

theorem method (m : Method) (r : Value) (args : List Value) : Lasts R (m.run host r args) := by
  unfold Method.run
  cases m.convention with
  | static => exact h.seq (h.body _ _ _ _ _) fun _ => h.pure _
  | object => exact h.seq (h.except _) fun _ => h.body _ _ _ _ _
  | record => exact h.body _ _ _ _ _

theorem read (m : Member) (r : Value) : Lasts R (m.read host r) := by
  unfold Member.read
  split
  · exact h.fail _
  · exact h.seq (h.except _) fun _ => h.world fun _ => h.pure _
  · split
    · exact h.pure _
    · exact h.fail _
  · exact h.seq (h.body _ _ _ _ _) fun _ => h.pure _
  · exact h.world fun _ => h.pure _
  · exact h.pure _
  · split
    · exact h.pure _
    · exact h.pure _

theorem refuse (refusal : Option String) : Lasts R (Member.refuse refusal) := by
  cases refusal with
  | none => exact h.pure _
  | some message => exact h.fail _

theorem store (m : Member) (o : ObjectRef) (s : String) (loud : Bool) (v : Value) :
    Lasts R (m.store host o s loud v) := by
  refine h.world fun w => ?_
  split
  · exact h.pure _
  · refine h.seq (h.change fun w => w.stores_setSlot _ _ _) fun _ => ?_
    split
    · exact h.notify _ _
    · exact h.pure _

theorem write (m : Member) (r v : Value) : Lasts R (m.write host r v) := by
  unfold Member.write
  split
  · exact h.fail _
  · refine h.seq (h.except _) fun o => h.seq (h.refuse _) fun _ => h.seq (h.except _) fun v => ?_
    exact h.seq (h.store _ _ _ _ _) fun _ => h.pure _
  · refine h.seq (h.refuse _) fun _ => h.seq (h.except _) fun v => ?_
    exact h.seq (h.change fun _ => {}) fun _ => h.pure _
  · split
    · exact h.pure _
    · exact h.fail _

theorem accessorGet (a : Accessor) (r : Value) : Lasts R (a.get host r) := h.read _ _

theorem accessorSet (a : Accessor) (r v : Value) : Lasts R (a.set host r v) := by
  unfold Accessor.set
  split
  · exact h.fail _
  · split
    · exact h.seq (h.write _ _ _) fun _ => h.pure _
    · exact h.write _ _ _

theorem receiverRead (r : Receiver) (a : Accessor) : Lasts R (r.read host a) := h.world fun _ => h.accessorGet _ _

theorem receiverWrite (r : Receiver) (a : Accessor) (v : Value) : Lasts R (r.write host a v) := by
  refine h.world fun w => h.seq (h.accessorSet _ _ _) fun after => ?_
  cases r with
  | boxed b => exact h.change fun _ => {}
  | shared u => exact h.pure _
  | type t => exact h.pure _

theorem delegate (d : Delegate) (args : List Value) : Lasts R (d.invoke host args) := by
  unfold Delegate.invoke
  apply h.check
  cases d.method.isStatic with
  | true => exact h.seq (h.method _ _ _) fun _ => h.pure _
  | false =>
    cases args with
    | nil => exact h.fail _
    | cons r rest =>
      simp only [Bool.false_eq_true, if_false]
      apply h.check
      exact h.seq (h.method _ _ _) fun _ => h.pure _

theorem invoke (m : Method) (r : Option Value) (args : List Value) : Lasts R (m.invoke host r args) := by
  unfold Method.invoke
  split
  · exact h.seq (h.method _ _ _) fun _ => h.pure _
  · exact h.seq (h.method _ _ _) fun _ => h.pure _
  · exact h.fail _

/-! ## Expressions, getters and setters -/

theorem closed : Effect.Closed (fun {_} x => Lasts R x) where
  pure := h.pure
  bind := h.seq
  except := h.except

theorem nodeRuns (x : Expr) : x.NodeRuns host (fun {_} y => Lasts R y) := by
  cases x with
  | member node target m => exact fun r => h.read _ _
  | typeMember node m => exact h.read _ _
  | call target m args => exact fun r vs => h.invoke _ _ _
  | typeCall m args => exact fun vs => h.invoke _ _ _
  | unary op operand t c =>
    cases op with
    | convert =>
      cases c with
      | some m => exact fun v => h.invoke _ _ _
      | none => trivial
    | _ => trivial
  | _ => trivial

theorem eval (e : Expr) : Lasts R (e.eval host) := Expr.eval_closed h.closed e fun x _ => h.nodeRuns x

end

mutual
theorem getter (h : host.Lasting R) (g : Getter) : Lasts R (g.run host) := by
  cases g with
  | constant v => exact h.pure _
  | read r a => exact h.receiverRead r a
  | coalesce l r =>
    have hl := getter h l
    have hr := getter h r
    refine h.seq hl fun v => ?_
    cases v.isNull with
    | true => exact hr
    | false => exact h.pure _
  | andAlso l r =>
    have hl := getter h l
    have hr := getter h r
    refine h.seq hl fun v => h.seq (h.except _) fun b => ?_
    cases b with
    | true => exact h.seq hr fun w => h.seq (h.except _) fun _ => h.pure _
    | false => exact h.pure _
  | orElse l r =>
    have hl := getter h l
    have hr := getter h r
    refine h.seq hl fun v => h.seq (h.except _) fun b => ?_
    cases b with
    | true => exact h.pure _
    | false => exact h.seq hr fun w => h.seq (h.except _) fun _ => h.pure _
  | equal l r =>
    have hl := getter h l
    have hr := getter h r
    exact h.seq hl fun a => h.seq hr fun b => h.pure _
  | concat l r =>
    have hl := getter h l
    have hr := getter h r
    exact h.seq hl fun a => h.seq hr fun b => h.pure _
  | not g =>
    have hi := getter h g
    exact h.seq hi fun v => h.seq (h.except _) fun b => h.pure _
  | cast g t =>
    have hi := getter h g
    exact h.seq hi fun v => h.except _
  | change g t =>
    have hi := getter h g
    exact h.seq hi fun v => h.except _
  | convert g d =>
    have hi := getter h g
    exact h.seq hi fun v => h.seq (h.delegate d _) fun r => h.pure _
  | call d args =>
    have ha := getters h args
    exact h.seq ha fun vs => h.seq (h.except _) fun d => h.seq (h.delegate d vs) fun r => h.pure _
  | evaluate e => exact h.eval e
termination_by structural g
theorem getters (h : host.Lasting R) (gs : List Getter) : Lasts R (Getter.runAll host gs) := by
  cases gs with
  | nil => exact h.pure _
  | cons g gs =>
    have hi := getter h g
    have hs := getters h gs
    exact h.seq hi fun v => h.seq hs fun vs => h.pure _
termination_by structural gs
end

section
variable (h : host.Lasting R)
include h

theorem customSetter (c : CustomSetter) (target : Target) (v : Value) : Lasts R (c.run host target v) := by
  cases c with
  | report tag => exact h.tell _
  | slot name refusal =>
    cases target with
    | type t => exact h.fail _
    | value receiver =>
      refine h.seq (h.except _) fun o => h.seq (h.tell _) fun _ => h.seq (h.refuse _) fun _ => ?_
      exact h.seq (h.change fun w => w.stores_setSlot _ _ _) fun _ => h.raiseNamed _ _

theorem setter (s : Setter) (v : Value) : Lasts R (s.run host v) := by
  induction s generalizing v with
  | write r a => exact h.receiverWrite r a v
  | custom c target => exact h.customSetter c target v
  | change t inner ih => exact h.seq (h.except _) fun w => ih w

/-! ## Jobs and commands -/

theorem job (j : Job) : Lasts R (j.run host) := by
  cases j with
  | assign a => exact h.seq (h.change fun _ => {}) fun _ => h.setter _ _
  | call g => exact h.seq (h.getter g) fun _ => h.pure _

theorem dispatch (d : Option Dispatcher) (j : Job) : Lasts R (DataBinding.dispatch host d j) := by
  cases d with
  | none => exact h.job j
  | some d =>
    refine h.seq (h.tell _) fun _ => ?_
    cases d with
    | inline => exact h.job j
    | reported => exact h.seq (lasts_attempt (h.job j)) fun r => h.seq (h.tell _) fun _ => h.except _
    | discard => exact h.pure _
    | defer => exact h.change fun _ => {}
    | refuse => exact h.fail _

theorem assign {id : BindingId} (hd : Lasts R (host.dispose id)) (s : Setter) (v : Value) :
    Lasts R (EqualityBinding.assign host id s v) := by
  apply h.world
  intro w
  cases w.equality? id with
  | none => exact h.pure _
  | some b =>
    refine h.seq (h.dispatch _ _) fun _ => ?_
    split
    · exact hd
    · exact h.pure _

theorem flush (n : Nat) : Lasts R (DataBinding.flush host n) := by
  induction n with
  | zero => exact h.pure _
  | succ n ih =>
    refine h.world fun w => ?_
    split
    · exact h.pure _
    · exact h.seq (h.change fun _ => {}) fun _ => h.seq (h.job _) fun _ => ih

theorem command (c : Command) (parameter : Value) : Lasts R (c.tryExecute host parameter) := by
  have hcan : Lasts R (c.canExecute host parameter) := by
    unfold Command.canExecute
    split
    · exact h.pure _
    · refine h.seq (h.tell _) fun _ => ?_
      split
      · exact h.pure _
      · exact h.pure _
      · exact h.world fun _ => h.pure _
      · exact h.pure _
  refine h.seq hcan fun allowed => ?_
  split
  · exact h.pure _
  · exact h.seq (h.seq (h.tell _) fun _ => h.run _) fun _ => h.pure _

end

end Host.Lasting

end DataBinding
