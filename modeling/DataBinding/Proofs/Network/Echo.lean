import DataBinding.Proofs.Network.Bind
import DataBinding.Proofs.Network.Couple

/-!
# Echoes

Whatever is written to one of the two sides of a two-way binding, the other side gets it once and nothing comes back
(`two_way_not_echoed`). An integer that goes to a side that stores numbers is the exception (`promoted_integer_echoed`).
-/

namespace DataBinding

open Effect

namespace Couple

variable {C : Couple} {id : BindingId} {b : EqualityBinding} {w w' : World} {f : Nat}

/-! ## Whatever is written -/

variable (C) in
def Keeps (id : BindingId) (w w' : World) : Prop := ∀ b, C.Linked id w b → ∃ b', C.Linked id w' b'

theorem keeps_chains : Chains (C.Keeps id) where
  refl _ b h := ⟨b, h⟩
  trans h h' b hb := by
    obtain ⟨b', hb'⟩ := h b hb
    exact h' b' hb'

theorem keeps_of_stores (h : w.Stores w') : C.Keeps id w w' := fun b hb => ⟨b, hb.of_stores h⟩

theorem dispose_keeps (host : Host) : Lasts (C.Keeps id) (host.dispose id) := by
  apply lasts_of_after
  intro w b h
  by_cases hd : b.disposed = true
  · rw [dispose_disposed (World.equality?_eq_some.mp h.known) hd]
    exact ⟨b, h⟩
  · obtain ⟨w', b', hrun, h', -⟩ := dispose_linked h (Bool.eq_false_iff.mpr hd) host
    rw [hrun]
    exact ⟨b', h'⟩

theorem caches_keeps (w : World) (v : Value) :
    C.Keeps id w (w.updateEquality id fun b => { b with value := v }) := by
  intro b h
  rw [EqualityBinding.updateEquality_value h.known]
  exact ⟨_, h.caches v⟩

section
variable (hp : ∀ s, Lasts (C.Keeps id) ((C.platform.withFuel f).perform (C.reaction id s)))
include hp

theorem respondAll_keeps (s : Side) {gs : List Handler} (hgs : ∀ g ∈ gs, C.Listener id s g) :
    Lasts (C.Keeps id) (respondAll (C.platform.withFuel f) (C.args s) gs) := by
  refine lasts_forM keeps_chains fun g hg => ?_
  rcases hgs g hg with hg | hg
  · have hrespond : g.respond (C.platform.withFuel f) (C.args s) = (C.platform.withFuel f).perform (C.reaction id s) :=
      respond_listening _ hg
    rw [hrespond]
    exact hp s
  · apply lasts_of_after
    intro w
    rw [show g.respond (C.platform.withFuel f) (C.args s) w = .ok () w from respond_deaf _ hg w]
    exact keeps_chains.refl w

theorem put_keeps (s : Side) (x : Value) : Lasts (C.Keeps id) ((C.side s).put (C.platform.withFuel f) x) := by
  -- which handlers are called is known in linked worlds only
  have hall : Lasts (C.Keeps id) (do respondAll (C.platform.withFuel f) (C.args s) ((← get).handlersOf (C.key s))) :=
    lasts_of_after fun w b h => (respondAll_keeps hp s (h.only s)).after w b h
  have hnotify : Lasts (C.Keeps id) ((C.platform.withFuel f).notify (C.side s).object (C.side s).member.name) :=
    always_bind keeps_chains (always_modify fun w => keeps_of_stores {}) fun _ =>
      lasts_nested keeps_chains (fun w d => keeps_of_stores {}) hall
  apply lasts_of_after
  intro w
  by_cases hs : x.settles (C.value s w) = true
  · rw [show (C.side s).put (C.platform.withFuel f) x w = .ok () w from if_pos hs]
    exact keeps_chains.refl w
  · rw [show (C.side s).put (C.platform.withFuel f) x w = (C.platform.withFuel f).notify (C.side s).object
      (C.side s).member.name ((C.side s).store w x) from if_neg hs]
    exact keeps_chains.trans (keeps_of_stores (w.stores_setSlot _ _ _)) (hnotify.after _)

theorem target_keeps (s : Side) (v : Value) : Lasts (C.Keeps id) ((C.target s).run (C.platform.withFuel f) v) := by
  cases hv : v.stored C.platform.types (C.type s) with
  | ok x =>
    rw [target_run s f hv]
    exact put_keeps hp s x
  | error e =>
    apply lasts_of_after
    intro w
    have hrun : (C.target s).run (C.platform.withFuel f) v w = .error (.failed e) w :=
      (loudOn s f).target_refuses hv w
    rw [hrun]
    exact keeps_chains.refl w

theorem dispatch_keeps (d : Option Dispatcher) (s : Side) (v : Value) :
    Lasts (C.Keeps id) (dispatch (C.platform.withFuel f) d (.assign ⟨id, C.target s, v⟩)) := by
  have hjob : Lasts (C.Keeps id) (Job.run (C.platform.withFuel f) (.assign ⟨id, C.target s, v⟩)) :=
    always_bind keeps_chains (always_modify fun w => keeps_of_stores {}) fun _ => target_keeps hp s v
  have htell (line : String) : Lasts (C.Keeps id) (tell line) := always_modify fun w => keeps_of_stores {}
  cases d with
  | none => exact hjob
  | some d =>
    refine always_bind keeps_chains (htell _) fun _ => ?_
    cases d with
    | inline => exact hjob
    | reported =>
      exact always_bind keeps_chains (lasts_attempt hjob) fun r =>
        always_bind keeps_chains (htell _) fun _ => lasts_ok keeps_chains r
    | discard => exact always_pure keeps_chains _
    | defer => exact always_modify fun w => keeps_of_stores {}
    | refuse => exact always_throw keeps_chains trivial

theorem follow_keeps (s : Side) :
    Lasts (C.Keeps id) (EqualityBinding.follow (C.platform.withFuel f) id (C.source s) (C.target s.other)) := by
  have hassign (v : Value) :
      Lasts (C.Keeps id) (EqualityBinding.assign (C.platform.withFuel f) id (C.target s.other) v) := by
    refine always_get keeps_chains fun w => ?_
    cases w.equality? id with
    | none => exact always_pure keeps_chains _
    | some b =>
      refine always_bind keeps_chains (dispatch_keeps hp b.dispatcher s.other v) fun _ => ?_
      by_cases hone : b.flags.isOneTime = true
      · simp only [hone, if_true]
        exact dispose_keeps _
      · simp only [hone]
        exact always_pure keeps_chains _
  apply lasts_of_after
  intro w b h
  by_cases hd : b.disposed = true
  · rw [EqualityBinding.follow_disposed h.known hd]
    exact ⟨b, h⟩
  · rw [EqualityBinding.follow_eq h.known (Bool.eq_false_iff.mpr hd) (source_run s f w)]
    by_cases hs : b.value.same (C.value s w) = true
    · rw [if_pos hs]
      exact ⟨b, h⟩
    · rw [if_neg hs]
      exact keeps_chains.trans (caches_keeps w _) ((hassign _).after _) b h

end

theorem perform_keeps (f : Nat) (s : Side) :
    Lasts (C.Keeps id) ((C.platform.withFuel f).perform (C.reaction id s)) := by
  induction f generalizing s with
  | zero => exact always_throw keeps_chains trivial
  | succ f ih => exact follow_keeps ih s

theorem write_eq_target (s : Side) (f : Nat) (v : Value) :
    C.write (C.platform.withFuel f) s v = (C.target s).run (C.platform.withFuel f) v :=
  ((loudOn s f).named_eq v).trans ((loudOn s f).target_eq v).symm

variable (C) in
/-- The world when one value after the other has been written, whatever became of the writes. -/
def afterWrites (f : Nat) (earlier : List (Side × Value)) (w : World) : World :=
  earlier.foldl (fun w p => after (C.write (C.platform.withFuel f) p.1 p.2 w)) w

theorem afterWrites_keeps (f : Nat) (earlier : List (Side × Value)) (w : World) :
    C.Keeps id w (C.afterWrites f earlier w) := by
  induction earlier generalizing w with
  | nil => exact keeps_chains.refl w
  | cons p earlier ih =>
    have hwrite : Lasts (C.Keeps id) (C.write (C.platform.withFuel f) p.1 p.2) := by
      rw [write_eq_target]
      exact target_keeps (perform_keeps f) p.1 p.2
    exact keeps_chains.trans (hwrite.after w) (ih _)

/-! ## Making the binding -/

variable (C) in
/-- The sides are listened to for other properties only, and the left side takes the first value if it gets one. -/
structure Start (flags : Flags) (w : World) : Prop where
  offers : ∀ s, (w.object (C.side s).object.name).offersChanges = true
  silent : ∀ s, ∀ g ∈ w.handlersOf (C.key s), g.Deaf (C.side s).member.name
  accepts : flags.hasInitialTrigger = true → C.config.assignments ≠ some .discard →
    ∃ y, (C.value .right w).stored C.platform.types (C.type .left) = .ok y

variable {flags : Flags}

theorem Start.first (h : C.Start flags w) (f : Nat) :
    ∃ w₁ b, EqualityBinding.start (C.platform.withFuel (f + 1)) ⟨w.next⟩ flags (C.source .right) (C.target .left)
        (w.registering { dispatcher := C.config.assignments, flags }) =
        .ok (flags.hasInitialTrigger && flags.isOneTime) w₁ ∧
      C.Linked ⟨w.next⟩ w₁ b ∧ ∀ o, (w₁.object o).offersChanges = (w.object o).offersChanges := by
  obtain ⟨b, hb⟩ : ∃ b : EqualityBinding, b = { dispatcher := C.config.assignments, flags } := ⟨_, rfl⟩
  rw [← hb]
  have hlinked : C.Linked ⟨w.next⟩ (w.registering b) b := by
    refine ⟨World.equality?_eq_some.mpr ((World.find?_setBinding _ _ _ _).trans (if_pos rfl)), ?_, ?_⟩
    · rw [hb]
      exact C.prompt
    · exact fun s g hg => .inr (h.silent s g hg)
  have hread : (C.source .right).run (C.platform.withFuel (f + 1)) (w.registering b) =
      .ok (C.value .right w) (w.registering b) := source_run .right (f + 1) _
  have hcached := hlinked.caches (C.value .right w)
  -- the binding has no handlers yet, so a first write is not echoed whatever the left side makes of the value
  by_cases hi : flags.hasInitialTrigger = true
  · obtain ⟨w₁, b₁, hassign, h₁, -, -, -, hoffers⟩ := assign_carries (x := C.value .right w) hcached (by rw [hb]) .left
      (fun hd => by
        obtain ⟨y, hy⟩ := h.accepts hi (by rw [hb] at hd; exact hd)
        exact ⟨y, hy, .inr (h.silent .left)⟩) f
    rw [EqualityBinding.start_eq hread hi, EqualityBinding.updateEquality_value hlinked.known, hi, Bool.true_and]
    exact ⟨w₁, b₁, bind_of_ok hassign, h₁, hoffers⟩
  · refine ⟨_, _, ?_, hcached, fun _ => rfl⟩
    unfold EqualityBinding.start
    rw [bind_of_ok hread]
    simp only [hi]
    rw [← EqualityBinding.updateEquality_value hlinked.known]
    rfl

theorem Start.create (h : C.Start flags w) (htwo : flags.isTwoWay = true) (f : Nat) :
    ∃ w₁ b, EqualityBinding.create (C.platform.withFuel (f + 1)) C.config flags (C.side .left).expr (C.side .right).expr w =
      .ok ⟨w.next⟩ w₁ ∧ C.Linked ⟨w.next⟩ w₁ b := by
  obtain ⟨w₁, b, hstart, hlinked, hoffers⟩ := h.first f
  have hoffers (s : Side) : (w₁.object (C.side s).object.name).offersChanges = true := (hoffers _).trans (h.offers s)
  cases hdone : flags.hasInitialTrigger && flags.isOneTime with
  | true =>
    rw [hdone] at hstart
    exact ⟨w₁, b, Endpoint.create_finished (loudOn .left (f + 1)) (loudOn .right (f + 1)) C.nodes hstart, hlinked⟩
  | false =>
    rw [hdone] at hstart
    obtain ⟨w', hcreate, hjoins⟩ := Endpoint.create_joins (loudOn .left (f + 1)) (loudOn .right (f + 1)) htwo C.nodes
      hstart hlinked.known (hoffers .left) (hoffers .right)
    obtain ⟨left, right, hown, -⟩ := hjoins.own
    refine ⟨w', _, hcreate, hown, hlinked.prompt, fun s g hg => ?_⟩
    have hother (s : Side) (hk : C.key s.other = .changed (C.side s).object.name) {n : Nat} {a : Action} :
        (⟨n, .property, .onProperty (C.side s).member.name a⟩ : Handler).Deaf (C.side s.other).member.name :=
      ⟨_, _, rfl, (C.separate s (EventKey.changed.inj hk).symm).2⟩
    rcases (hjoins.handlersOf _ g).mp hg with hg | ⟨hk, rfl⟩ | ⟨hk, rfl⟩
    · exact hlinked.only s g hg
    · cases s with
      | left => exact .inr (hother .right hk)
      | right => exact .inl rfl
    · cases s with
      | left => exact .inl rfl
      | right => exact .inr (hother .left hk)

end Couple

/-- A binding between two properties, made under any flags for two ways. Whatever has been written to the sides since,
the next write of a value that both sides accept, and that the other side does not turn into a number, succeeds. The
binding gives at most this value to the setter of the other side and nothing to any other setter, and the side that was
written keeps the value. -/
theorem two_way_not_echoed (C : Couple) {flags : Flags} (htwo : flags.isTwoWay = true) {w : World} (h : C.Start flags w)
    {fuel : Nat} (hf : 2 ≤ fuel) :
    ∃ id w₁, EqualityBinding.create (C.platform.withFuel fuel) C.config flags (C.side .left).expr (C.side .right).expr w =
        .ok id w₁ ∧
      ∀ earlier s v x y, v.Built → v.stored C.platform.types (C.type s) = .ok x →
        x.stored C.platform.types (C.type s.other) = .ok y → (C.type s.other = .float → x.asInt? = none) →
        ∃ w₂ w₃, C.afterWrites fuel earlier w₁ = w₂ ∧ C.write (C.platform.withFuel fuel) s v w₂ = .ok () w₃ ∧
          C.Once id s.other x w₂ w₃ ∧ (C.value s w₃).same x = true := by
  obtain ⟨f, rfl⟩ : ∃ f, fuel = f + 2 := ⟨fuel - 2, by omega⟩
  obtain ⟨w₁, b, hcreate, hlinked⟩ := h.create htwo (f + 1)
  refine ⟨_, w₁, hcreate, fun earlier s v x y hv hx hy hint => ?_⟩
  obtain ⟨b₂, h₂⟩ := Couple.afterWrites_keeps (f + 2) earlier w₁ b hlinked
  have hfits : x.stored C.platform.types (C.type s.other) = .ok x := by
    rw [hy, Value.stored_eq_self hy hint]
  obtain ⟨w₃, b₃, hput, -, honce, hvalue⟩ := Couple.put_carries h₂ s hfits (Value.stored_same hv.coherent hx) f
  refine ⟨_, w₃, rfl, ?_, honce, hvalue⟩
  rw [Couple.write_eq s (f + 2) hx]
  exact hput

/-! ## Parcels -/

namespace Parcels

/-- What is entered for a parcel: an integer, a number and anything at all. -/
inductive Entry where
  | count
  | weight
  | note
deriving DecidableEq

namespace Entry

def name : Entry → String
  | count => "Count"
  | weight => "Weight"
  | note => "Note"

def type : Entry → TypeId
  | count => .int
  | weight => .float
  | note => .object

def position : Entry → Nat
  | count => 0
  | weight => 1
  | note => 2

def spec (r : Entry) : MemberSpec := ⟨r.name, .property, r.type, false, some (.slot r.name), some (.slot r.name none true)⟩

end Entry

def platform : Platform :=
  ⟨⟨[{ name := "Parcel", notifies := true, members := [Entry.count, .weight, .note].map Entry.spec }]⟩,
    fun _ => "Model", none⟩

def entry (r : Entry) : Endpoint where
  node := ⟨r.position⟩
  object := ⟨"p", ⟨5⟩, .model⟩
  shown := ⟨5⟩
  label := none
  member := { r.spec with id := ⟨⟨5⟩, r.position⟩ }
  slot := r.name

theorem entry_loud (r : Entry) : (entry r).Loud platform.types {} r.type where
  model := rfl
  declared := by cases r <;> rfl
  kind := rfl
  isInstance := rfl
  unshadowed := by
    cases r
    all_goals
      rintro m ⟨⟩
      rfl
  stored := by cases r <;> rfl
  notifies := .inl rfl
  unregistered := rfl
  readable := rfl
  writable := rfl
  found := by cases r <;> rfl
  writes := by cases r <;> rfl
  typed := by cases r <;> rfl
  own := rfl

theorem name_ne {l r : Entry} (h : l ≠ r) : l.name ≠ r.name := by
  intro hn
  cases l <;> cases r
  all_goals first | exact h rfl | exact absurd hn (by decide)

theorem prompt : (none : Option Dispatcher) ≠ some .defer ∧ (none : Option Dispatcher) ≠ some .refuse := by decide

def couple (l r : Entry) (h : l ≠ r) : Couple where
  platform := platform
  config := {}
  side := Side.pick (entry l) (entry r)
  type := Side.pick l.type r.type
  unlimited := rfl
  prompt := prompt
  loud s := by
    cases s
    · exact entry_loud l
    · exact entry_loud r
  separate s _ := by
    cases s
    · exact ⟨name_ne h, name_ne h⟩
    · exact ⟨name_ne h.symm, name_ne h.symm⟩
  nodes _ := rfl

def idle : World where
  objects := Table.empty.insert "p"
    { slots := (Table.empty.insert "Count" (.integer 0)).insert "Note" (.integer 3), offersChanges := true }

theorem count_ne_note : Entry.count ≠ .note := by decide

theorem count_ne_weight : Entry.count ≠ .weight := by decide

def noted : Couple := couple .count .note count_ne_note

theorem noted_start : noted.Start .twoWay idle where
  offers s := by cases s <;> rfl
  silent s g hg := by cases s <;> cases hg
  accepts _ _ := ⟨.integer 3, rfl⟩

theorem int_ne_float : TypeId.int ≠ .float := by decide

/-- The count refuses a text that is written to the note, and gets the integer that comes after it. -/
theorem noted_once :
    ∃ id w₁ w₂ w₃, EqualityBinding.create (platform.withFuel 2) {} .twoWay (entry .count).expr (entry .note).expr idle =
        .ok id w₁ ∧
      noted.afterWrites 2 [(.right, .text "many")] w₁ = w₂ ∧
      noted.write (platform.withFuel 2) .right (.integer 5) w₂ = .ok () w₃ ∧
      noted.Once id .left (.integer 5) w₂ w₃ ∧ (noted.value .right w₃).same (.integer 5) = true := by
  obtain ⟨id, w₁, hcreate, hwrites⟩ := two_way_not_echoed noted (show Flags.twoWay.isTwoWay = true by decide) noted_start
    (Nat.le_refl 2)
  obtain ⟨w₂, w₃, hw₂, hwrite, honce, hvalue⟩ := hwrites [(.right, .text "many")] .right (.integer 5) (.integer 5) (.integer 5)
    (.scalar _ fun _ _ h => by cases h) rfl rfl fun hfloat => absurd hfloat int_ne_float
  exact ⟨id, w₁, w₂, w₃, hcreate, hw₂, hwrite, honce, hvalue⟩

def weighed : Couple := couple .count .weight count_ne_weight

/-- The count is bound to the weight without a first value. -/
def weigh : Effect BindingId :=
  EqualityBinding.create (platform.withFuel 6) {} (Flags.twoWay.union .noInitialTrigger) (entry .count).expr
    (entry .weight).expr

def property? : Setter → Option String
  | .write _ a => some a.member.name
  | _ => none

/-- The weight makes a number of an integer that it gets from the count, and the count, which has changed, is handed
this number. -/
theorem promoted_integer_echoed :
    (∃ y, (Value.integer 1).stored platform.types .float = .ok y) ∧ (result? (weigh idle)).isSome = true ∧
      failure? (weighed.write (platform.withFuel 6) .left (.integer 1) (after (weigh idle))) =
        some (.typeMismatch (.expected "Int" "Float")) ∧
      (after (weighed.write (platform.withFuel 6) .left (.integer 1) (after (weigh idle)))).assignments.map
          (fun a => (property? a.target, a.value.type?)) =
        [(some "Count", some .float), (some "Weight", some .int)] := by
  refine ⟨⟨_, rfl⟩, ?_⟩
  decide

end Parcels

end DataBinding
