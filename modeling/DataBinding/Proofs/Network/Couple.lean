import DataBinding.Proofs.Binding.Dispose
import DataBinding.Proofs.Network.Telling
import DataBinding.Proofs.Value.Equivalence

/-!
# Couples

Two properties, each of a type of its own, and a two-way binding that is the only one to listen to them. When one side
gets a value that the binding does not know, the binding caches it before it hands it to the other side. So it takes no
notice when the other side tells about it, as long as that side stores the very value that it gets (`put_carries`).
-/

namespace DataBinding

open Effect

/-- Every type but that of numbers stores what it accepts as it is. -/
theorem Value.stored_eq_self {types : TypeTable} {t : TypeId} {v x : Value} (h : v.stored types t = .ok x)
    (hn : t = .float → v.asInt? = none) : x = v := by
  unfold stored at h
  by_cases hb : t = .bool
  · rw [if_pos hb] at h
    cases v <;> cases h
    rfl
  · by_cases hi : t = .int
    · rw [if_neg hb, if_pos hi] at h
      cases v <;> cases h
      rfl
    · by_cases hf : t = .float
      · rw [if_neg hb, if_neg hi, if_pos hf] at h
        have hn := hn hf
        cases v <;> cases h
        · cases hn
        · rfl
      · by_cases hs : t = .string
        · rw [if_neg hb, if_neg hi, if_neg hf, if_pos hs] at h
          cases v <;> cases h
          all_goals rfl
        · rw [if_neg hb, if_neg hi, if_neg hf, if_neg hs] at h
          cases h
          rfl

theorem Value.stored_same {types : TypeTable} {t : TypeId} {v x : Value} (hv : v.Coherent)
    (h : v.stored types t = .ok x) : x.same x = true := by
  by_cases hn : t = .float → v.asInt? = none
  · rw [stored_eq_self h hn]
    exact same_refl hv
  · obtain ⟨rfl, hi⟩ := Classical.not_imp.mp hn
    cases v <;> cases h
    · exact same_refl (.scalar _ fun _ _ h => by cases h)
    · exact absurd rfl hi

theorem Endpoint.Loud.target_refuses {host : Host} {config : Configuration} {t : TypeId} {e : Endpoint}
    (h : e.Loud host.types config t) {v : Value} {err : Error} (hv : v.stored host.types t = .error err) (w : World) :
    (e.target host.types).run host v w = .error (.failed err) w := by
  have hstored : v.stored host.types (e.visible host.types).type = .error err := h.typed.symm ▸ hv
  rw [h.target_eq]
  unfold Member.write
  rw [h.writes]
  simp only [Host.downcast_object h.model, hstored]
  rfl

inductive Side where
  | left
  | right
deriving DecidableEq

def Side.other : Side → Side
  | left => right
  | right => left

def Side.pick {α : Type} (l r : α) : Side → α
  | left => l
  | right => r

@[simp] theorem Side.other_other (s : Side) : s.other.other = s := by cases s <;> rfl

/-- Two properties, and a configuration without a dispatcher or with one that does not put off what it gets. -/
structure Couple where
  platform : Platform
  config : Configuration
  side : Side → Endpoint
  type : Side → TypeId
  unlimited : platform.raiseLimit = none
  prompt : config.assignments ≠ some .defer ∧ config.assignments ≠ some .refuse
  loud : ∀ s, (side s).Loud platform.types config (type s)
  separate : ∀ s, (side s).object.name = (side s.other).object.name →
    (side s).slot ≠ (side s.other).slot ∧ (side s).member.name ≠ (side s.other).member.name
  nodes : (side .left).node = (side .right).node → (side .left).object = (side .right).object

namespace Couple

variable (C : Couple)

def source (s : Side) : Getter := (C.side s).source C.platform.types

def target (s : Side) : Setter := (C.side s).target C.platform.types

def value (s : Side) (w : World) : Value := (C.side s).value w

def key (s : Side) : EventKey := .changed (C.side s).object.name

def args (s : Side) : EventArgs := .property (C.side s).member.name

def reaction (id : BindingId) (s : Side) : Action := .follow id (C.source s) (C.target s.other)

def write (host : Host) (s : Side) (v : Value) : Effect Unit :=
  host.writeNamed (C.side s).object (C.side s).member.name v

/-- The handler is one of the binding for this side, or has nothing to do with this side. -/
def Listener (id : BindingId) (s : Side) (g : Handler) : Prop :=
  g.response = .onProperty (C.side s).member.name (C.reaction id s) ∨ g.Deaf (C.side s).member.name

/-- Nothing but the binding listens to the sides. -/
structure Linked (id : BindingId) (w : World) (b : EqualityBinding) : Prop where
  known : w.equality? id = some b
  prompt : b.dispatcher ≠ some .defer ∧ b.dispatcher ≠ some .refuse
  only : ∀ s, ∀ g ∈ w.handlersOf (C.key s), C.Listener id s g

variable {C} {id : BindingId} {b b' : EqualityBinding} {w w' : World} {s : Side} {f : Nat} {x v : Value}

theorem Linked.frame (h : C.Linked id w b) (hh : ∀ k, w'.handlersOf k ⊆ w.handlersOf k)
    (hb : w'.equality? id = some b') (hd : b'.dispatcher = b.dispatcher) : C.Linked id w' b' where
  known := hb
  prompt := hd ▸ h.prompt
  only s g hg := h.only s g (hh _ hg)

theorem Linked.of_stores (h : C.Linked id w b) (hs : w.Stores w') : C.Linked id w' b :=
  h.frame (fun k => by unfold World.handlersOf; rw [hs.handlers]; exact List.Subset.refl _)
    (by unfold World.equality?; rw [hs.bindings]; exact h.known) rfl

theorem Linked.caches (h : C.Linked id w b) (v : Value) :
    C.Linked id (w.setBinding id (.equality { b with value := v })) { b with value := v } :=
  h.frame (fun _ => List.Subset.refl _)
    (World.equality?_eq_some.mpr ((World.find?_setBinding _ _ _ _).trans (if_pos rfl))) rfl

theorem loudOn (s : Side) (f : Nat) : (C.side s).Loud (C.platform.withFuel f).types C.config (C.type s) := C.loud s

theorem source_run (s : Side) (f : Nat) (w : World) :
    (C.source s).run (C.platform.withFuel f) w = .ok (C.value s w) w :=
  (loudOn s f).source_run w

theorem target_run (s : Side) (f : Nat) (hx : v.stored C.platform.types (C.type s) = .ok x) :
    (C.target s).run (C.platform.withFuel f) v = (C.side s).put (C.platform.withFuel f) x :=
  (loudOn s f).target_run hx

theorem write_eq (s : Side) (f : Nat) (hx : v.stored C.platform.types (C.type s) = .ok x) :
    C.write (C.platform.withFuel f) s v = (C.side s).put (C.platform.withFuel f) x :=
  (loudOn s f).writeNamed_eq hx

theorem value_store (s : Side) (w : World) (x : Value) : C.value s.other ((C.side s).store w x) = C.value s.other w := by
  unfold value
  rw [Endpoint.value_store, if_neg]
  intro hslot
  exact (C.separate s hslot.1).1 hslot.2

/-! ## Nothing new -/

theorem follow_known (h : C.Linked id w b) (s : Side) (hs : b.disposed = true ∨ b.value.same (C.value s w) = true)
    (f : Nat) : EqualityBinding.follow (C.platform.withFuel f) id (C.source s) (C.target s.other) w = .ok () w := by
  by_cases hd : b.disposed = true
  · exact EqualityBinding.follow_disposed h.known hd
  · rw [EqualityBinding.follow_eq h.known (Bool.eq_false_iff.mpr hd) (source_run s f w), if_pos (hs.resolve_left hd)]

/-- A side that has the cached value causes nothing, and neither does any side of a disposed binding. -/
theorem respondAll_known (h : C.Linked id w b) (s : Side) (hs : b.disposed = true ∨ b.value.same (C.value s w) = true)
    (f : Nat) {gs : List Handler} (hgs : ∀ g ∈ gs, C.Listener id s g) :
    respondAll (C.platform.withFuel (f + 1)) (C.args s) gs w = .ok () w := by
  apply respondAll_still
  intro g hg
  rcases hgs g hg with hg | hg
  · exact (congrFun (respond_listening _ hg) w).trans (follow_known h s hs f)
  · exact respond_deaf _ hg w

theorem stores_raising (e : Endpoint) (w : World) (x : Value) : w.Stores (e.raising w x) where
  offers := (w.stores_setSlot e.object.name e.slot x).offers
  exposes := (w.stores_setSlot e.object.name e.slot x).exposes

variable (C) in
/-- The binding makes nothing of this value on this side: it has been disposed, knows the value or does not listen. -/
def Ignores (w : World) (b : EqualityBinding) (s : Side) (x : Value) : Prop :=
  (b.disposed = true ∨ b.value.same x = true) ∨ ∀ g ∈ w.handlersOf (C.key s), g.Deaf (C.side s).member.name

/-- A value that the binding ignores is stored unless it settles, and nothing else happens. -/
theorem put_ignored (h : C.Linked id w b) (s : Side) (hs : C.Ignores w b s x) (f : Nat) :
    ∃ w', (C.side s).put (C.platform.withFuel (f + 1)) x w = .ok () w' ∧ w.Stores w' ∧
      w'.assignments = w.assignments ∧ C.value s.other w' = C.value s.other w := by
  by_cases hx : x.settles (C.value s w) = true
  · exact ⟨w, if_pos hx, {}, rfl, rfl⟩
  · have hvalue : C.value s ((C.side s).raising w x) = x := Endpoint.value_store_self (C.side s) w x
    have hrun : respondAll (C.platform.withFuel (f + 1)) (C.args s) (w.handlersOf (C.key s)) ((C.side s).raising w x) =
        .ok () ((C.side s).raising w x) := by
      rcases hs with hs | hs
      · exact respondAll_known (h.of_stores (stores_raising (C.side s) w x)) s (hvalue.symm ▸ hs) f (h.only s)
      · exact respondAll_still _ fun g hg => respond_deaf _ (hs g hg) _
    refine ⟨_, Endpoint.put_told C.unlimited (Bool.eq_false_iff.mpr hx) hrun, ?_, rfl, value_store s w x⟩
    exact World.stores_chains.trans (stores_raising (C.side s) w x) {}

/-! ## A new value -/

variable (C) in
/-- The binding has given at most one value to a setter, and that to the one of this side. -/
def Once (id : BindingId) (s : Side) (x : Value) (w w' : World) : Prop :=
  w'.assignments = w.assignments ∨ w'.assignments = ⟨id, C.target s, x⟩ :: w.assignments

theorem dispatch_carries (h : C.Linked id w b) (s : Side) (hx : b.dispatcher ≠ some .discard →
      ∃ y, x.stored C.platform.types (C.type s) = .ok y ∧ C.Ignores w b s y) (f : Nat) :
    ∃ w', dispatch (C.platform.withFuel (f + 1)) b.dispatcher (.assign ⟨id, C.target s, x⟩) w = .ok () w' ∧
      w.Stores w' ∧ C.Once id s x w w' ∧ C.value s.other w' = C.value s.other w := by
  have hjob (log : List String) (hd : b.dispatcher ≠ some .discard) :
      ∃ w', Job.run (C.platform.withFuel (f + 1)) (.assign ⟨id, C.target s, x⟩) { w with log := log } = .ok () w' ∧
        w.Stores w' ∧ w'.assignments = ⟨id, C.target s, x⟩ :: w.assignments ∧
        C.value s.other w' = C.value s.other w := by
    -- the assignment is told before the setter runs
    obtain ⟨y, hy, hs⟩ := hx hd
    have h₁ : C.Linked id { w with assignments := ⟨id, C.target s, x⟩ :: w.assignments, log := log } b := h.of_stores {}
    obtain ⟨w', hput, hst, ha, hv⟩ := put_ignored h₁ s hs f
    refine ⟨w', ?_, World.stores_chains.trans {} hst, ha, hv⟩
    show (C.target s).run (C.platform.withFuel (f + 1)) x _ = _
    rw [target_run s (f + 1) hy]
    exact hput
  cases hd : b.dispatcher with
  | none =>
    obtain ⟨w', hrun, hst, ha, hv⟩ := hjob w.log (by rw [hd]; simp)
    exact ⟨w', hrun, hst, .inr ha, hv⟩
  | some d =>
    cases d with
    | inline =>
      obtain ⟨w', hrun, hst, ha, hv⟩ := hjob (("dispatch " ++ Dispatcher.inline.text) :: w.log) (by rw [hd]; simp)
      exact ⟨w', hrun, hst, .inr ha, hv⟩
    | reported =>
      obtain ⟨w', hrun, hst, ha, hv⟩ := hjob (("dispatch " ++ Dispatcher.reported.text) :: w.log) (by rw [hd]; simp)
      refine ⟨{ w' with log := "dispatched" :: w'.log }, ?_, World.stores_chains.trans hst {}, .inr ha, hv⟩
      exact (bind_of_ok rfl).trans ((bind_of_ok (attempt_eq_ok.mpr hrun)).trans rfl)
    | discard => exact ⟨_, rfl, {}, .inl rfl, rfl⟩
    | defer => exact absurd hd h.prompt.1
    | refuse => exact absurd hd h.prompt.2

theorem dispose_linked (h : C.Linked id w b) (hd : b.disposed = false) (host : Host) :
    ∃ w' b', host.dispose id w = .ok () w' ∧ C.Linked id w' b' ∧ b'.disposed = true ∧
      w'.assignments = w.assignments ∧ w'.objects = w.objects := by
  obtain ⟨w', hrun, hl⟩ := dispose_live host (World.equality?_eq_some.mp h.known) hd
  have hb : w'.equality? id = some { b with
      disposed := true, left := b.left.map Trigger.detached, right := b.right.map Trigger.detached } := by
    rw [World.equality?_eq_some, hl.bindings]
    exact (World.find?_setBinding _ _ _ _).trans (if_pos rfl)
  exact ⟨w', _, hrun, h.frame hl.removed hb rfl, rfl, hl.assignments, hl.objects⟩

theorem assign_carries (h : C.Linked id w b) (hd : b.disposed = false) (s : Side) (hx : b.dispatcher ≠ some .discard →
      ∃ y, x.stored C.platform.types (C.type s) = .ok y ∧ C.Ignores w b s y) (f : Nat) :
    ∃ w' b', EqualityBinding.assign (C.platform.withFuel (f + 1)) id (C.target s) x w = .ok () w' ∧
      C.Linked id w' b' ∧ (b'.disposed = true ∨ b'.value = b.value) ∧ C.Once id s x w w' ∧
      C.value s.other w' = C.value s.other w ∧ ∀ o, (w'.object o).offersChanges = (w.object o).offersChanges := by
  obtain ⟨w₁, hrun, hst, honce, hv⟩ := dispatch_carries h s hx f
  have h₁ := h.of_stores hst
  have hassign : EqualityBinding.assign (C.platform.withFuel (f + 1)) id (C.target s) x w =
      (if b.flags.isOneTime then Host.dispose (C.platform.withFuel (f + 1)) id else pure () : Effect Unit) w₁ := by
    unfold EqualityBinding.assign
    rw [bind_get]
    simp only [h.known]
    rw [bind_of_ok hrun]
  rw [hassign]
  by_cases hone : b.flags.isOneTime = true
  · obtain ⟨w₂, b₂, hdispose, h₂, hd₂, ha₂, ho₂⟩ := dispose_linked h₁ hd (C.platform.withFuel (f + 1))
    rw [if_pos hone]
    refine ⟨w₂, b₂, hdispose, h₂, .inl hd₂, ?_, ?_, fun o => ?_⟩
    · unfold Once
      rw [ha₂]
      exact honce
    · unfold value Endpoint.value World.slot World.object at hv ⊢
      rw [ho₂]
      exact hv
    · unfold World.object
      rw [ho₂]
      exact hst.offers o
  · rw [if_neg hone]
    exact ⟨w₁, b, rfl, h₁, .inr rfl, honce, hv, hst.offers⟩

/-- What a side has is carried over to the other one, if it is new. After that the binding knows it. -/
theorem follow_carries (h : C.Linked id w b) (s : Side)
    (hx : (C.value s w).stored C.platform.types (C.type s.other) = .ok (C.value s w))
    (hself : (C.value s w).same (C.value s w) = true) (f : Nat) :
    ∃ w' b', EqualityBinding.follow (C.platform.withFuel (f + 1)) id (C.source s) (C.target s.other) w = .ok () w' ∧
      C.Linked id w' b' ∧ (b'.disposed = true ∨ b'.value.same (C.value s w) = true) ∧
      C.Once id s.other (C.value s w) w w' ∧ C.value s w' = C.value s w := by
  by_cases hs : b.disposed = true ∨ b.value.same (C.value s w) = true
  · exact ⟨w, b, follow_known h s hs (f + 1), h, hs, .inl rfl, rfl⟩
  · obtain ⟨hd, hs⟩ := not_or.mp hs
    have hd : b.disposed = false := Bool.eq_false_iff.mpr hd
    rw [EqualityBinding.follow_eq h.known hd (source_run s (f + 1) w), if_neg hs,
      EqualityBinding.updateEquality_value h.known]
    -- the value is cached before it is handed over, so what the other side tells is known
    obtain ⟨w', b', hrun, h', hb', honce, hv, -⟩ := assign_carries (h.caches (C.value s w)) hd s.other
      (fun _ => ⟨_, hx, .inl (.inr hself)⟩) f
    rw [Side.other_other] at hv
    refine ⟨w', b', hrun, h', hb'.imp_right fun hb' => ?_, honce, hv⟩
    rw [hb']
    exact hself

theorem respondAll_carries (h : C.Linked id w b) (s : Side)
    (hx : (C.value s w).stored C.platform.types (C.type s.other) = .ok (C.value s w))
    (hself : (C.value s w).same (C.value s w) = true) (f : Nat) {gs : List Handler} (hgs : ∀ g ∈ gs, C.Listener id s g) :
    ∃ w' b', respondAll (C.platform.withFuel (f + 2)) (C.args s) gs w = .ok () w' ∧ C.Linked id w' b' ∧
      C.Once id s.other (C.value s w) w w' ∧ C.value s w' = C.value s w := by
  induction gs with
  | nil => exact ⟨w, b, rfl, h, .inl rfl, rfl⟩
  | cons g gs ih =>
    have hrest := fun g hg => hgs g (List.mem_cons_of_mem _ hg)
    rcases hgs g List.mem_cons_self with hg | hg
    · obtain ⟨w₁, b₁, hfollow, h₁, hs₁, honce, hv⟩ := follow_carries h s hx hself f
      have hone : g.respond (C.platform.withFuel (f + 2)) (C.args s) w = .ok () w₁ :=
        (congrFun (respond_listening _ hg) w).trans hfollow
      -- a second handler of the binding finds nothing new
      exact ⟨w₁, b₁, (bind_of_ok hone).trans (respondAll_known h₁ s (hv.symm ▸ hs₁) (f + 1) hrest), h₁, honce, hv⟩
    · obtain ⟨w₁, b₁, hall, hw₁⟩ := ih hrest
      exact ⟨w₁, b₁, (bind_of_ok (respond_deaf _ hg w)).trans hall, hw₁⟩

theorem put_carries (h : C.Linked id w b) (s : Side) (hx : x.stored C.platform.types (C.type s.other) = .ok x)
    (hself : x.same x = true) (f : Nat) :
    ∃ w' b', (C.side s).put (C.platform.withFuel (f + 2)) x w = .ok () w' ∧ C.Linked id w' b' ∧
      C.Once id s.other x w w' ∧ (C.value s w').same x = true := by
  by_cases hs : x.settles (C.value s w) = true
  · exact ⟨w, b, if_pos hs, h, .inl rfl, Value.same_of_settles hs⟩
  · have hvalue : C.value s ((C.side s).raising w x) = x := Endpoint.value_store_self (C.side s) w x
    obtain ⟨w', b', hrun, h', honce, hv⟩ := respondAll_carries (h.of_stores (stores_raising (C.side s) w x)) s
      (hvalue.symm ▸ hx) (hvalue.symm ▸ hself) f (h.only s)
    rw [hvalue] at honce hv
    refine ⟨_, b', Endpoint.put_told C.unlimited (Bool.eq_false_iff.mpr hs) hrun, h'.of_stores {}, honce, ?_⟩
    show (C.value s w').same x = true
    rw [hv]
    exact hself

end Couple

end DataBinding
