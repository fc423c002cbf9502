import BundleAdjustment.Proofs.Outcome
import BundleAdjustment.Proofs.Problem.Calls

/-! # Problems and their histories

A problem after any calls follows from the accepted ones: what is named, which arrays are entered, how many residual
blocks there are, and which arrays are held constant.
-/

namespace BundleAdjustment

open Problem Stateful

/-- The problem is what the accepted changes made of it. -/
structure Problem.Follows (caller : Set ParameterArray) (h : History) (p : Problem) : Prop where
  bound : ∀ name a, p.names.lookup name = some a ↔ .named name a ∈ h
  known : ∀ name constant, .switched name constant ∈ h → p.names.lookup name ≠ none
  registry : p.registry.Holds caller h.entered h.holds
  numResidualBlocks : p.numResidualBlocks = h.countP Change.isResidual

namespace Problem.Follows

variable {caller : Set ParameterArray} {h : History} {p q : Problem} {logs logs' : List Log} {name : String}
  {a : ParameterArray} {manifold : Option Manifold} {f : Fault} {c : Change} {x : Stateful Problem Unit}

/-- A free name was never switched, so that no earlier switch becomes one of the array that is given the name. -/
theorem switches_named (hp : p.Follows caller h) (hfree : p.names.lookup name = none) (a' : ParameterArray) :
    History.switches (h ++ [.named name a]) a' = h.switches a' := by
  rw [History.switches_append]
  · exact List.append_nil _
  intro name' constant hswitched
  have hne : name' ≠ name := fun heq => hp.known name' constant hswitched (heq ▸ hfree)
  simp [hne]

/-- A switch through a name is a switch of the array with this name, and of no other. -/
theorem switches_switched (hp : p.Follows caller h) (hname : p.names.lookup name = some a) (constant : Bool)
    (a' : ParameterArray) : History.switches (h ++ [.switched name constant]) a' =
      h.switches a' ++ (if a' = a then [constant] else []) := by
  have hiff : Change.named name a' ∈ h ++ [.switched name constant] ↔ a' = a := by
    simp [← hp.bound, hname, eq_comm]
  rw [History.switches_append (by simp)]
  simp only [History.switch?, hiff]
  split_ifs <;> rfl

theorem withBlock (hp : p.Follows caller h) (hfree : p.names.lookup name = none) (ha : a ∈ caller)
    (hsize : 0 < a.size) (hm : ∀ m, manifold = some m → m.Suits a) :
    (p.withBlock name a manifold a.size).Follows caller (h ++ [.named name a]) where
  bound name' a' := by
    have hnew : .named name a' ∉ h := fun hmem => by simp [(hp.bound name a').mpr hmem] at hfree
    change (p.withName name a).names.lookup name' = some a' ↔ _
    rw [lookup_withName a hfree]
    by_cases hname : name' = name
    · subst hname
      simp [hnew, eq_comm]
    · simp [hname, hp.bound]
  known name' constant hswitched := by
    change (p.withName name a).names.lookup name' ≠ none
    rw [lookup_withName a hfree]
    split_ifs
    · simp
    · exact hp.known name' constant (by simpa using hswitched)
  registry := by
    rw [History.holds_congr (hp.switches_named hfree), History.entered_append]
    have hentered := hp.registry.enter ha hsize
    cases manifold with
    | none => exact hentered
    | some m => exact hentered.setManifold (List.mem_append_right _ List.mem_cons_self) hsize (hm m rfl)
  numResidualBlocks := by
    have hnum : (p.withBlock name a manifold a.size).numResidualBlocks = p.numResidualBlocks := by
      cases manifold <;> simp [Problem.numResidualBlocks, Problem.withBlock, Registry.setManifold]
    rw [hnum, hp.numResidualBlocks, List.countP_append]
    rfl

theorem setConstant (hp : p.Follows caller h) (hname : p.names.lookup name = some a) (constant : Bool) :
    ({ p with registry := p.registry.setConstant a.key constant } : Problem).Follows caller
      (h ++ [.switched name constant]) where
  bound name' a' := by simpa using hp.bound name' a'
  known name' constant' hswitched := by
    rcases List.mem_append.mp hswitched with hmem | hlast
    · exact hp.known name' constant' hmem
    · obtain ⟨rfl, -⟩ : name' = name ∧ constant' = constant := by simpa using hlast
      simp [hname]
  registry := by
    have hentered : a ∈ h.entered :=
      List.mem_flatMap.mpr ⟨.named name a, (hp.bound name a).mp hname, List.mem_cons_self⟩
    simp only [History.entered_append, Change.arrays, List.append_nil]
    refine hp.registry.setConstant hentered ?_ fun a' hne => ?_
    · simp [History.holds, hp.switches_switched hname]
    · simp [History.holds, hp.switches_switched hname, hne]
  numResidualBlocks := by
    rw [List.countP_append, ← hp.numResidualBlocks]
    rfl

theorem addResidual {b : ResidualBlock} {r : Registry} (hp : p.Follows caller h) (hb : ∀ a ∈ b.arrays, a ∈ caller)
    (hsize : ∀ a ∈ b.arrays, 0 < a.size) (hok : p.registry.addResidualBlock b = .ok r) :
    ({ p with registry := r } : Problem).Follows caller (h ++ [.residual b.arrays]) where
  bound name' a' := by simpa using hp.bound name' a'
  known name' constant hswitched := hp.known name' constant (by simpa using hswitched)
  registry := by
    rw [History.holds_congr (History.switches_residual b.arrays), History.entered_append]
    exact hp.registry.addResidualBlock hb hsize hok
  numResidualBlocks := by
    rw [List.countP_append, ← hp.numResidualBlocks]
    exact Registry.numResidualBlocks_addResidualBlock hok

theorem of_failed (hp : p.Follows caller h) (hx : outcome x (p, logs) = (.error f, p, logs)) :
    (outcome x (p, logs)).2.1.Follows caller (h ++ acceptedBy x c (p, logs)) := by
  simpa only [acceptedBy, hx, List.append_nil] using hp

theorem of_ok (hx : outcome x (p, logs) = (.ok (), q, logs')) (hq : q.Follows caller (h ++ [c])) :
    (outcome x (p, logs)).2.1.Follows caller (h ++ acceptedBy x c (p, logs)) := by
  simpa only [acceptedBy, hx] using hq

theorem addBlock (hp : p.Follows caller h) (ha : a ∈ caller) (hvector : a.IsVector)
    (hm : p.names.lookup name = none → ∀ m, manifold = some m → m.Suits a) :
    (outcome (addBlock name a manifold) (p, logs)).2.1.Follows caller
      (h ++ acceptedBy (Problem.addBlock name a manifold) (.named name a) (p, logs)) := by
  have hplain : a.isPlain = true := by simp [ParameterArray.isPlain, hvector.isDouble, hvector.isContiguous]
  have houtcome := outcome_addBlock p logs name a manifold
  simp only [hplain, hvector.length] at houtcome
  cases hname : p.names.lookup name with
  | some b =>
    have hfailed : outcome (Problem.addBlock name a manifold) (p, logs) = (.error (.nameTaken name), p, logs) := by
      rw [houtcome, hname]
      rfl
    exact hp.of_failed hfailed
  | none =>
    have hok : outcome (Problem.addBlock name a manifold) (p, logs) =
        (.ok (), p.withBlock name a manifold a.size, logs ++ [additionLog name a.size]) := by
      rw [houtcome, hname]
      rfl
    exact of_ok hok (hp.withBlock hname ha hvector.size_pos (hm hname))

theorem perform {r : Registration} (hp : p.Follows caller h) (hr : ∀ a ∈ r.arrays, a ∈ caller)
    (hvector : ∀ a ∈ caller, a.IsVector) (habort : ¬ r.Aborts p) :
    (outcome r.perform (p, logs)).2.1.Follows caller (h ++ acceptedBy r.perform r.change (p, logs)) := by
  cases r with
  | block name a manifold =>
    have ha : a ∈ caller := hr a List.mem_cons_self
    refine hp.addBlock ha (hvector a ha) fun hfree m hm => ?_
    subst hm
    exact not_not.mp fun hsuits => habort ⟨hfree, hsuits⟩
  | quaternion name a =>
    have ha : a ∈ caller := hr a List.mem_cons_self
    have houtcome : outcome (Registration.quaternion name a).perform (p, logs) = _ :=
      outcome_addQuaternion p logs name a
    simp only [(hvector a ha).length] at houtcome
    by_cases hsize : a.size = 4
    · have hm : Manifold.quaternion.Suits a := ⟨hsize.symm, fun _ h => nomatch h⟩
      simp only [hsize, if_true] at houtcome
      simp only [acceptedBy, houtcome]
      exact hp.addBlock ha (hvector a ha) fun _ m h => Option.some.inj h ▸ hm
    · exact hp.of_failed (by simpa only [hsize, if_false] using houtcome)
  | unitVector name a =>
    have ha : a ∈ caller := hr a List.mem_cons_self
    have houtcome : outcome (Registration.unitVector name a).perform (p, logs) = _ :=
      outcome_addUnitVector p logs name a
    simp only [(hvector a ha).length] at houtcome
    simp only [acceptedBy, houtcome]
    exact hp.addBlock ha (hvector a ha) fun _ m h => Option.some.inj h ▸ not_not.mp habort
  | switch name constant =>
    have houtcome : outcome (Registration.switch name constant).perform (p, logs) = _ :=
      outcome_setConstant p logs name constant
    cases hname : p.names.lookup name with
    | none => exact hp.of_failed (by simpa only [hname] using houtcome)
    | some a => exact of_ok (by simpa only [hname] using houtcome) (hp.setConstant hname constant)

theorem addResidualBlock (hp : p.Follows caller h) (cost : Cost Float) {arrays : List ParameterArray}
    (loss : Option Loss) (harrays : ∀ a ∈ arrays, a ∈ caller) (hvector : ∀ a ∈ caller, a.IsVector) :
    (outcome (addResidualBlock cost arrays loss) (p, logs)).2.1.Follows caller
      (h ++ acceptedBy (Problem.addResidualBlock cost arrays loss) (.residual arrays) (p, logs)) := by
  have houtcome := outcome_addResidualBlock p logs cost arrays loss
  cases hr : p.registry.addResidualBlock ⟨cost, loss.or p.loss, arrays⟩ with
  | error f => exact hp.of_failed (by simpa only [hr] using houtcome)
  | ok r =>
    have hsize : ∀ a ∈ arrays, 0 < a.size := fun a ha => (hvector a (harrays a ha)).size_pos
    exact of_ok (by simpa only [hr] using houtcome) (hp.addResidual harrays hsize hr)

theorem addCollection (hp : p.Follows caller h) (es : List (CostEntry Float ParameterArray))
    (hes : ∀ e ∈ es, ∀ a ∈ e.parameters, a ∈ caller) (hvector : ∀ a ∈ caller, a.IsVector) :
    (outcome (addCollection ⟨es⟩) (p, logs)).2.1.Follows caller (h ++ acceptedEntries es (p, logs)) := by
  induction es generalizing h p logs with
  | nil => simpa only [outcome_addCollection_nil, acceptedEntries, List.append_nil] using hp
  | cons e es ih =>
    have hfirst : (outcome (Problem.addResidualBlock e.cost e.parameters none) (p, logs)).2.1.Follows caller _ :=
      hp.addResidualBlock e.cost none (hes e List.mem_cons_self) hvector
    rw [outcome_addCollection_cons, acceptedEntries]
    rcases hx : outcome (Problem.addResidualBlock e.cost e.parameters none) (p, logs) with ⟨_ | _, q, logs'⟩
    · simpa only [acceptedBy, hx] using hfirst
    · simp only [acceptedBy, hx] at hfirst
      simpa using ih hfirst fun e' he' => hes e' (List.mem_cons_of_mem e he')

theorem after {c : Call} {s : Problem × List Log} (hs : s.1.Follows caller h) (hc : ∀ a ∈ c.arrays, a ∈ caller)
    (hvector : ∀ a ∈ caller, a.IsVector) (habort : ¬ c.Aborts s.1) :
    (c.after s).1.Follows caller (h ++ c.accepted s) := by
  cases c with
  | registration r => exact hs.perform hc hvector habort
  | residual cost arrays loss => exact hs.addResidualBlock cost loss hc hvector
  | collection c =>
    exact hs.addCollection c.entries (fun e he a ha => hc a (List.mem_flatMap.mpr ⟨e, he, ha⟩)) hvector

theorem afterCalls {calls : List Call} {s : Problem × List Log} (hs : s.1.Follows caller h)
    (hcalls : ∀ c ∈ calls, ∀ a ∈ c.arrays, a ∈ caller) (hvector : ∀ a ∈ caller, a.IsVector)
    (habort : NoneAborts calls s) : (afterCalls calls s).1.Follows caller (h ++ history calls s) := by
  induction calls generalizing h s with
  | nil => simpa only [BundleAdjustment.afterCalls, List.foldl_nil, history, List.append_nil] using hs
  | cons c calls ih =>
    have hafter := hs.after (hcalls c List.mem_cons_self) hvector habort.1
    simpa only [BundleAdjustment.afterCalls, List.foldl_cons, history, List.append_assoc] using
      ih hafter (fun c' hc' => hcalls c' (List.mem_cons_of_mem c hc')) habort.2

end Problem.Follows

theorem Problem.new_eq_ok {config : Config} {p : Problem} (h : Problem.new config = .ok p) :
    p.names = [] ∧ p.registry = .empty := by
  obtain ⟨loss, -, hp⟩ := Outcome.bind_eq_ok.mp h
  obtain rfl := Except.ok.inj hp
  exact ⟨rfl, rfl⟩

theorem Problem.follows_new {config : Config} {caller : Set ParameterArray} {p : Problem}
    (h : Problem.new config = .ok p) (hapart : Set.InjOn ParameterArray.key caller) : p.Follows caller [] := by
  obtain ⟨hnames, hregistry⟩ := new_eq_ok h
  refine ⟨fun name a => ?_, fun name constant hswitched => absurd hswitched List.not_mem_nil, ?_, ?_⟩
  · simp [hnames]
  · rw [hregistry]
    exact Registry.holds_empty hapart
  · rw [numResidualBlocks, hregistry]
    rfl

/-- After any calls on a new problem by a caller whose arrays have keys of their own, a name is bound to the array under
which it was accepted. Every array that was named or used is entered, and held constant if and only if the last switch
through any of its names made it so. The numbers of parameters and residual blocks count what was accepted. -/
theorem Problem.determined_by_history {config : Config} {p₀ : Problem} {logs : List Log}
    {caller : Set ParameterArray} {calls : List Call} (hnew : Problem.new config = .ok p₀)
    (hvector : ∀ a ∈ caller, a.IsVector) (hapart : Set.InjOn ParameterArray.key caller)
    (hcalls : ∀ c ∈ calls, ∀ a ∈ c.arrays, a ∈ caller) (habort : NoneAborts calls (p₀, logs)) :
    let p := (afterCalls calls (p₀, logs)).1
    let h := history calls (p₀, logs)
    (∀ name a, p.array name = .ok a ↔ .named name a ∈ h) ∧
      (∀ a ∈ h.entered, ∃ b, p.registry.block? a.key = some b ∧ b.array = a ∧
        (b.isFixed = true ↔ (h.switches a).getLast? = some true)) ∧
      p.numParameters = (h.entered.dedup.map ParameterArray.size).sum ∧
      p.numResidualBlocks = h.countP Change.isResidual := by
  intro p h
  have hp : p.Follows caller h := (follows_new hnew hapart).afterCalls hcalls hvector habort
  refine ⟨fun name a => ?_, fun a ha => ?_, hp.registry.numParameters, hp.numResidualBlocks⟩
  · rw [← hp.bound, array]
    cases p.names.lookup name <;> simp [throw, throwThe, MonadExceptOf.throw, pure, Except.pure]
  · obtain ⟨b, hb, hmem, rfl⟩ := hp.registry.exists_block ha
    exact ⟨b, hb, rfl, by rw [hp.registry.isFixed hmem, History.holds_eq_true]⟩

def ParameterArray.quadruple : ParameterArray := ⟨"quadruple", [4], true, true⟩

def stubEntry (arrays : List ParameterArray) (sizes : List Nat) : CostEntry Float ParameterArray :=
  ⟨.stub [0] sizes true, arrays, "", .reprojection, 1, [], .none⟩

/-- One array under two names, a name that is taken, an array of the wrong size in the middle of a collection, and
switches of both arrays. -/
def sharedPoint : List Call :=
  [.registration (.block "point" .triple none), .registration (.quaternion "rotation" .quadruple),
    .registration (.unitVector "direction" .triple), .registration (.block "point" .quadruple none),
    .registration (.switch "point" true), .registration (.switch "rotation" true),
    .residual (.stub [0] [4, 3] true) [.quadruple, .triple] none,
    .collection ⟨[stubEntry [.triple] [3], stubEntry [.quadruple] [3], stubEntry [.quadruple] [4]]⟩,
    .registration (.switch "direction" false), .registration (.switch "camera" true)]

theorem Problem.determined_by_history_sharedPoint :
    let p := (afterCalls sharedPoint (.blank, [])).1
    p.array "point" = .ok .triple ∧ p.array "direction" = .ok .triple ∧
      (∃ b, p.registry.block? "triple" = some b ∧ b.isFixed ≠ true) ∧
      (∃ b, p.registry.block? "quadruple" = some b ∧ b.isFixed = true) ∧
      p.numParameters = 7 ∧ p.numResidualBlocks = 2 := by
  have hhistory : history sharedPoint (.blank, []) =
      [.named "point" .triple, .named "rotation" .quadruple, .named "direction" .triple,
        .switched "point" true, .switched "rotation" true, .residual [.quadruple, .triple],
        .residual [.triple], .switched "direction" false] := by
    rfl
  have hvector : ∀ a ∈ ({.triple, .quadruple} : Set ParameterArray), a.IsVector := by
    rintro a (rfl | rfl)
    · exact ⟨rfl, rfl, 3, by decide, rfl⟩
    · exact ⟨rfl, rfl, 4, by decide, rfl⟩
  have hapart : Set.InjOn ParameterArray.key {.triple, .quadruple} := by
    rintro a (rfl | rfl) b (rfl | rfl) hkey
    · rfl
    · exact absurd hkey (by decide)
    · exact absurd hkey (by decide)
    · rfl
  have hcalls : ∀ c ∈ sharedPoint, ∀ a ∈ c.arrays, a ∈ ({.triple, .quadruple} : Set ParameterArray) := by
    simp [sharedPoint, stubEntry, Call.arrays, Registration.arrays]
  have hsphere : (Manifold.sphere ParameterArray.triple.size).Suits .triple :=
    ⟨rfl, fun size hsize => Manifold.sphere.inj hsize ▸ by decide⟩
  have habort : NoneAborts sharedPoint (.blank, []) := by
    simp [NoneAborts, sharedPoint, Call.Aborts, Registration.Aborts, hsphere]
  have hnew : Problem.new {} = .ok .blank := rfl
  obtain ⟨hbound, hentered, hparameters, hresiduals⟩ :=
    Problem.determined_by_history hnew hvector hapart hcalls habort
  rw [hhistory] at hbound hentered hparameters hresiduals
  obtain ⟨b, hb, -, hfree⟩ := hentered .triple (by decide)
  obtain ⟨b', hb', -, hheld⟩ := hentered .quadruple (by decide)
  have hmoves : b.isFixed ≠ true := fun h => absurd (hfree.mp h) (by decide)
  exact ⟨(hbound _ _).mpr (by decide), (hbound _ _).mpr (by decide), ⟨b, hb, hmoves⟩, ⟨b', hb', hheld.mpr (by decide)⟩,
    hparameters, hresiduals⟩

end BundleAdjustment
