import BundleAdjustment.Proofs.Cost.ForCamera

/-! # Shared kernels

The table of kernels along any sequence of constructions, those that fail among them. It only grows, no kernel is in it
twice, and every cost holds the handle of the kernel that its class and its camera model ask for. So two costs share a
kernel if and only if they ask for the same.
-/

namespace BundleAdjustment

open Stateful

namespace KernelTable

variable {t t' t'' : KernelTable} {k k' : Kernel} {h h' : Handle}

/-- The later table has the kernels of the earlier one under their handles, and repeats none if the earlier one does
not. -/
structure Grows (t t' : KernelTable) : Prop where
  entered : t.kernels <+: t'.kernels
  nodup : t.kernels.Nodup → t'.kernels.Nodup

theorem Grows.refl (t : KernelTable) : t.Grows t := ⟨List.prefix_rfl, id⟩

theorem Grows.trans (h : t.Grows t') (h' : t'.Grows t'') : t.Grows t'' :=
  ⟨h.entered.trans h'.entered, h'.nodup ∘ h.nodup⟩

theorem grows_intern (t : KernelTable) (k : Kernel) : t.Grows (t.intern k).2 := by
  cases hk : t.kernels.idxOf? k with
  | some i =>
    simp only [intern, hk]
    exact .refl t
  | none =>
    have hnew : k ∉ t.kernels := List.idxOf?_eq_none_iff.mp hk
    simp only [intern, hk]
    exact ⟨List.prefix_append _ _, fun hnodup => List.concat_eq_append ▸ hnodup.concat hnew⟩

theorem Grows.get? (hgrows : t.Grows t') (hk : t.get? h = some k) : t'.get? h = some k := by
  obtain ⟨ks, hks⟩ := hgrows.entered
  rw [KernelTable.get?] at hk ⊢
  rw [← hks, List.getElem?_append_left (List.getElem?_eq_some_iff.mp hk).1, hk]

/-- Without repetitions, handles are the same if and only if their kernels are. -/
theorem handle_eq_iff (hnodup : t.kernels.Nodup) (hk : t.get? h = some k) (hk' : t.get? h' = some k') :
    h = h' ↔ k = k' := by
  constructor
  · rintro rfl
    exact Option.some.inj (hk.symm.trans hk')
  · rintro rfl
    exact (List.getElem?_inj (List.getElem?_eq_some_iff.mp hk).1 hnodup).mp (hk.trans hk'.symm)

end KernelTable

namespace Cost

variable {t t' : KernelTable} {k : Kernel} {c : Cost Float}

/-- The cost, or the one that it wraps, is a measurement of a kernel, and its handle is the one of that kernel. -/
def Holds (c : Cost Float) (t : KernelTable) (k : Kernel) : Prop :=
  ∃ m h, c.core = .measurement m h ∧ m.kernel = k ∧ t.get? h = some k

theorem Holds.grows (hc : c.Holds t k) (hgrows : t.Grows t') : c.Holds t' k := by
  obtain ⟨m, h, hcore, hm, hk⟩ := hc
  exact ⟨m, h, hcore, hm, hgrows.get? hk⟩

theorem Holds.congr {c' : Cost Float} (hc : c.Holds t k) (hcore : c'.core = c.core) : c'.Holds t k := by
  obtain ⟨m, h, hm⟩ := hc
  exact ⟨m, h, hcore ▸ hm⟩

end Cost

namespace Build

variable {β γ : Type}

/-- Whatever the computation comes to, the table has only grown. -/
def KeepsKernels (x : Build β) : Prop :=
  ∀ s : KernelTable × List Log, s.1.Grows (outcome x s).2.1

theorem keepsKernels_lift (x : Except Fault β) : KeepsKernels (Stateful.lift x) := by
  intro s
  rw [outcome_lift]
  exact .refl s.1

theorem keepsKernels_logged (x : Logged β) : KeepsKernels (Stateful.logged x) := by
  intro s
  rw [outcome_logged]
  exact .refl s.1

theorem keepsKernels_need (pose : Option (Rigid Float)) : KeepsKernels (need pose) := by
  intro s
  rw [outcome_need]
  exact .refl s.1

theorem keepsKernels_measurement (m : Measurement Float) : KeepsKernels (measurement m) := by
  intro s
  rw [outcome_measurement]
  exact s.1.grows_intern m.kernel

theorem KeepsKernels.bind {x : Build β} {f : β → Build γ} (hx : KeepsKernels x) (hf : ∀ a, KeepsKernels (f a)) :
    KeepsKernels (x >>= f) := by
  intro s
  have hfirst := hx s
  rw [outcome_bind]
  rcases hrun : outcome x s with ⟨_ | a, s'⟩
  · rwa [hrun] at hfirst
  · rw [hrun] at hfirst
    exact hfirst.trans (hf a s')

theorem keepsKernels_conditioned (wrapped : Cost Float) (conditioners : List (Option (Cost Float))) :
    KeepsKernels (conditioned wrapped conditioners) := by
  intro s
  rw [outcome_conditioned]
  exact .refl s.1

theorem KeepsKernels.noise {x : Build (Cost Float)} (hx : KeepsKernels x) (stddev : Float) :
    KeepsKernels (noise stddev x) := by
  intro s
  have hmade := hx s
  rw [outcome_noise]
  split_ifs
  · rcases hrun : outcome x s with ⟨_ | wrapped, s'⟩ <;> rwa [hrun] at hmade
  · exact .refl s.1

end Build

theorem CameraCost.keepsKernels_build (c : CameraCost) (camera : CameraModel) : (c.build camera).KeepsKernels := by
  intro s
  rw [outcome_build]
  cases c.read with
  | error f => exact .refl s.1
  | ok measurement => exact s.1.grows_intern _

theorem CameraFactory.keepsKernels_build (f : CameraFactory) (camera : CameraModel) :
    (f.build camera).KeepsKernels := by
  cases h : f.stddev with
  | none => simpa only [build, h] using f.cost.keepsKernels_build camera
  | some stddev => simpa only [build, h] using (f.cost.keepsKernels_build camera).noise stddev

/-- A call that is to make a cost. What is conditioned by given costs is a cost already; what is divided by a deviation
is made in the same call. -/
inductive Construction where
  | forModel (f : CameraFactory) (camera : CameraModel)
  | forKey (label : String) (key : Datum) (f : CameraFactory)
  | posePrior (prior : Option (Rigid Float)) (covariance : Datum)
  | positionPrior (position covariance : Datum)
  | relativePosePrior (prior : Option (Rigid Float)) (covariance : Datum)
  | alignment (point covariance : Datum)
  | sampson (x1 x2 : Datum)
  | linear (scale : Datum)
  | stub (residual : List Float) (blockSizes : List Nat) (ok : Bool)
  | conditioned (wrapped : Cost Float) (conditioners : List (Option (Cost Float)))
  | noisy (stddev : Float) (made : Construction)

namespace Construction

def build : Construction → Build (Cost Float)
  | forModel f camera => f.build camera
  | forKey label key f => Build.forCamera label key f.build
  | posePrior prior covariance => Build.posePrior prior covariance
  | positionPrior position covariance => Build.positionPrior position covariance
  | relativePosePrior prior covariance => Build.relativePosePrior prior covariance
  | alignment point covariance => Build.alignment point covariance
  | sampson x1 x2 => Build.sampson x1 x2
  | linear scale => Build.linear scale
  | stub residual blockSizes ok => pure (.stub residual blockSizes ok)
  | conditioned wrapped conditioners => Build.conditioned wrapped conditioners
  | noisy stddev made => Build.noise stddev made.build

/-- The formula and the camera model of a call for a reprojection cost, also if its residuals are to be divided. -/
def specialization? : Construction → Option (KernelFamily × CameraModel)
  | forModel f camera => some (f.cost.family, camera)
  | forKey _ key f => (CameraModel.ofKey key).toOption.map fun camera => (f.cost.family, camera)
  | noisy _ made => made.specialization?
  | _ => none

open Build in
/-- No call takes a kernel out of the table or enters one twice, also if it fails. -/
theorem keepsKernels_build (x : Construction) : x.build.KeepsKernels := by
  induction x with
  | forModel f camera => exact f.keepsKernels_build camera
  | forKey label key f =>
    intro s
    rw [build, outcome_forCamera]
    cases CameraModel.ofKey key with
    | error fault => exact .refl s.1
    | ok camera => exact f.keepsKernels_build camera (s.1, s.2 ++ [dispatchLog label camera])
  | posePrior prior covariance | relativePosePrior prior covariance =>
    refine (keepsKernels_logged _).bind fun S => ?_
    exact (keepsKernels_need prior).bind fun T => keepsKernels_measurement _
  | positionPrior point covariance | alignment point covariance =>
    refine (keepsKernels_lift _).bind fun p => ?_
    exact (keepsKernels_logged _).bind fun S => keepsKernels_measurement _
  | sampson x1 x2 =>
    refine (keepsKernels_lift _).bind fun x₁ => ?_
    exact (keepsKernels_lift _).bind fun x₂ => keepsKernels_measurement _
  | linear scale => exact (keepsKernels_lift _).bind fun a s => .refl s.1
  | stub residual blockSizes ok => exact fun s => .refl s.1
  | conditioned wrapped conditioners => exact keepsKernels_conditioned wrapped conditioners
  | noisy stddev made ih => exact ih.noise stddev

end Construction

/-- A computation after which the table has a kernel, and the cost that is made, if any, holds it. -/
def Build.MakesHolding (x : Build (Cost Float)) (k : Kernel) : Prop :=
  ∀ s c, (outcome x s).1 = .ok c → c.Holds (outcome x s).2.1 k

theorem Build.MakesHolding.noise {x : Build (Cost Float)} {k : Kernel} (hx : MakesHolding x k) (stddev : Float) :
    MakesHolding (Build.noise stddev x) k := by
  intro s c hc
  rw [outcome_noise] at hc ⊢
  split_ifs at hc ⊢
  cases hrun : outcome x s with
  | mk made s' =>
    cases made with
    | error f => simp [hrun] at hc
    | ok wrapped =>
      have hwrapped : wrapped.Holds (outcome x s).2.1 k := hx s wrapped (congrArg Prod.fst hrun)
      simp only [hrun, Except.ok.injEq] at hc hwrapped ⊢
      exact hwrapped.congr (hc ▸ rfl)

theorem CameraCost.makesHolding_build (cost : CameraCost) (camera : CameraModel) :
    (cost.build camera).MakesHolding (cost.family.bind camera) := by
  intro s c hc
  rw [outcome_build] at hc ⊢
  cases hread : cost.read with
  | error f => simp [hread] at hc
  | ok measurement =>
    cases measurement with
    | error f => simp [hread, Except.map] at hc
    | ok m =>
      simp only [hread, Except.map, Except.ok.injEq] at hc ⊢
      obtain rfl := hc
      exact ⟨m camera, _, rfl, kernel_read hread camera, s.1.get?_intern _⟩

theorem CameraFactory.makesHolding_build (f : CameraFactory) (camera : CameraModel) :
    (f.build camera).MakesHolding (f.cost.family.bind camera) := by
  have hcost := f.cost.makesHolding_build camera
  cases h : f.stddev with
  | none => simpa only [build, h] using hcost
  | some stddev => simpa only [build, h] using hcost.noise stddev

namespace Construction

/-- A reprojection cost holds the kernel of its formula and camera model, whatever the table had before. -/
theorem makesHolding_build {f : KernelFamily} {camera : CameraModel} {x : Construction}
    (hx : x.specialization? = some (f, camera)) : x.build.MakesHolding (f.bind camera) := by
  induction x with
  | forModel g model =>
    cases hx
    exact g.makesHolding_build _
  | forKey label key g =>
    intro s c hc
    cases hkey : CameraModel.ofKey key with
    | error fault => simp [specialization?, hkey, Except.toOption] at hx
    | ok model =>
      simp only [specialization?, hkey, Except.toOption, Option.map_some] at hx
      cases hx
      simp only [build, Build.outcome_forCamera, hkey] at hc ⊢
      exact g.makesHolding_build _ _ c hc
  | noisy stddev made ih => exact (ih hx).noise stddev
  | _ => cases hx

/-- What the calls return, one after the other over one table, and what they leave. -/
def makeAll : List Construction → KernelTable × List Log →
    List (Except Fault (Cost Float)) × KernelTable × List Log
  | [], s => ([], s)
  | x :: xs, s =>
    let (made, s') := outcome x.build s
    let (rest, s'') := makeAll xs s'
    (made :: rest, s'')

theorem makeAll_cons (x : Construction) (xs : List Construction) (s : KernelTable × List Log) :
    makeAll (x :: xs) s = ((outcome x.build s).1 :: (makeAll xs (outcome x.build s).2).1,
      (makeAll xs (outcome x.build s).2).2) := rfl

theorem grows_makeAll (xs : List Construction) (s : KernelTable × List Log) : s.1.Grows (makeAll xs s).2.1 := by
  induction xs generalizing s with
  | nil => exact .refl s.1
  | cons x xs ih => exact (x.keepsKernels_build s).trans (ih (outcome x.build s).2)

variable {x : Construction} {xs : List Construction} {s : KernelTable × List Log} {logs : List Log}
  {f : KernelFamily} {camera : CameraModel} {c : Cost Float}

/-- Each reprojection cost of a run holds its kernel in the table that the run leaves. -/
theorem holds_makeAll (hmem : (x, .ok c) ∈ xs.zip (makeAll xs s).1) (hx : x.specialization? = some (f, camera)) :
    c.Holds (makeAll xs s).2.1 (f.bind camera) := by
  induction xs generalizing s with
  | nil => cases hmem
  | cons y xs ih =>
    rw [makeAll_cons, List.zip_cons_cons, List.mem_cons] at hmem
    cases hmem with
    | inl hfirst =>
      obtain ⟨rfl, hc⟩ := Prod.mk.inj hfirst
      exact (makesHolding_build hx s c hc.symm).grows (grows_makeAll xs _)
    | inr hrest => exact ih hrest

/-- Along any run, failing calls among them, a reprojection cost holds a kernel that is its formula with its own camera
model bound; and another one holds the same if and only if formula and camera model are the same. -/
theorem kernel_eq_iff_of_makeAll (hmem : (x, .ok c) ∈ xs.zip (makeAll xs (.empty, logs)).1)
    (hx : x.specialization? = some (f, camera)) :
    ∃ m h, c.core = .measurement m h ∧ (makeAll xs (.empty, logs)).2.1.get? h = some m.kernel ∧
      (∀ {α : Type} [Scalar α] (observed : Block α) (scene : List (Block α)) (intrinsics : Block α),
        m.kernel.apply (observed :: (scene ++ [intrinsics])) = f.error camera observed scene intrinsics) ∧
      ∀ x' c' f' camera', (x', .ok c') ∈ xs.zip (makeAll xs (.empty, logs)).1 →
        x'.specialization? = some (f', camera') → (c'.core.kernel? = some h ↔ f' = f ∧ camera' = camera) := by
  obtain ⟨m, h, hcore, hkernel, hget⟩ := holds_makeAll hmem hx
  have hnodup : (makeAll xs (.empty, logs)).2.1.kernels.Nodup :=
    (grows_makeAll xs (.empty, logs)).nodup List.nodup_nil
  refine ⟨m, h, hcore, hkernel ▸ hget, fun observed scene intrinsics => ?_, fun x' c' f' camera' hmem' hx' => ?_⟩
  · rw [hkernel, f.apply_bind]
  · obtain ⟨m', h', hcore', -, hget'⟩ := holds_makeAll hmem' hx'
    calc c'.core.kernel? = some h
      _ ↔ h' = h := by rw [hcore', Cost.kernel?, Option.some.injEq]
      _ ↔ f'.bind camera' = f.bind camera := KernelTable.handle_eq_iff hnodup hget' hget
      _ ↔ f' = f ∧ camera' = camera := KernelFamily.bind_eq_bind_iff

/-- A run in which a call fails early, another one fails after it entered its kernel, and the last is dispatched. -/
def mixedRun : List Construction :=
  let pixel : Datum := .list [.float 1, .float 2]
  [.sampson pixel .null,
   .forModel ⟨.fixedPoseReprojection none pixel, none⟩ .pinhole,
   .forModel ⟨.rigReprojection pixel, none⟩ .pinhole,
   .forModel ⟨.reprojection pixel, none⟩ .pinhole,
   .forKey "ReprojErrorConstantPoseCost" (.int 1)
    ⟨.fixedPoseReprojection (some ⟨⟨1, 0, 0, 0⟩, ⟨0, 0, 0⟩⟩) pixel, none⟩]

/-- The kernel that a failing call left is the one that the costs with a free and with a fixed pose hold; the rig has
another one. -/
theorem kernel_shared_mixedRun : ∃ rig free fixed h,
    (makeAll mixedRun (.empty, [])).1.drop 2 = [.ok rig, .ok free, .ok fixed] ∧
      (makeAll mixedRun (.empty, [])).2.1.get? h = some (.reprojection .pinhole) ∧
        free.core.kernel? = some h ∧ fixed.core.kernel? = some h ∧ rig.core.kernel? ≠ some h := by
  let rig : Cost Float := .measurement (.rigReprojection .pinhole ⟨1, 2⟩) 1
  let free : Cost Float := .measurement (.reprojection .pinhole ⟨1, 2⟩) 0
  let fixed : Cost Float := .measurement (.fixedPoseReprojection .pinhole ⟨⟨1, 0, 0, 0⟩, ⟨0, 0, 0⟩⟩ ⟨1, 2⟩) 0
  have hrig : (mixedRun[2], .ok rig) ∈ mixedRun.zip (makeAll mixedRun (.empty, [])).1 :=
    List.mem_of_getElem? (i := 2) rfl
  have hfree : (mixedRun[3], .ok free) ∈ mixedRun.zip (makeAll mixedRun (.empty, [])).1 :=
    List.mem_of_getElem? (i := 3) rfl
  have hfixed : (mixedRun[4], .ok fixed) ∈ mixedRun.zip (makeAll mixedRun (.empty, [])).1 :=
    List.mem_of_getElem? (i := 4) rfl
  obtain ⟨m, h, hcore, hget, -, hiff⟩ := kernel_eq_iff_of_makeAll hfree rfl
  have hfree' := hiff _ _ _ _ hfree rfl
  have hfixed' := hiff _ _ _ _ hfixed rfl
  have hrig' := hiff _ _ _ _ hrig rfl
  cases hcore
  have hother : rig.core.kernel? ≠ some 0 := fun h => nomatch (hrig'.mp h).1
  exact ⟨rig, free, fixed, 0, rfl, hget, hfree'.mpr ⟨rfl, rfl⟩, hfixed'.mpr ⟨rfl, rfl⟩, hother⟩

end Construction

end BundleAdjustment
