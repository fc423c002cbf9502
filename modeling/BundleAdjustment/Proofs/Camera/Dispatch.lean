import BundleAdjustment.Proofs.Cost.ForCamera
import BundleAdjustment.Proofs.Decimal.ExactValue

/-! # Dispatch by key

A text is a key for the camera model whose name is its upper case, any other datum for the model whose number it equals.
Costs that are made for two keys of one model differ in nothing but the handles of their kernels.
-/

namespace BundleAdjustment

open Stateful

namespace Text

/-- The tables start with the letters from a to z. Everything else in them is outside ASCII. -/
theorem upperCaseOf_ascii {c : Char} (hc : c.toNat < 128) : upperCaseOf c = [c.toUpper] := by
  have hexpansions : ∀ e ∈ upperExpansions, 128 ≤ e.1 := by decide +kernel
  have hruns : ∀ run ∈ upperRuns.tail, 128 ≤ run.1 := by decide +kernel
  have hexpansion : upperExpansions.lookup c.toNat = none := by
    rw [List.lookup_eq_none_iff]
    intro e he
    exact bne_iff_ne.mpr (Nat.ne_of_lt (Nat.lt_of_lt_of_le hc (hexpansions e he)))
  have htail (p : Nat × Nat × Nat × Int → Bool) (hp : ∀ run, p run = true → run.1 ≤ c.toNat) :
      upperRuns.tail.find? p = none := by
    rw [List.find?_eq_none]
    intro run hrun hmatch
    exact Nat.not_le_of_lt hc ((hruns run hrun).trans (hp run hmatch))
  have hletter : ∀ n < 128, [(Char.ofNat n).toUpper] =
      if 97 ≤ n ∧ n ≤ 122 then [Char.ofNat (n - 32)] else [Char.ofNat n] := by decide +kernel
  have hcons : upperRuns = (97, 122, 1, -32) :: upperRuns.tail := rfl
  have hupper := hletter c.toNat hc
  rw [Char.ofNat_toNat] at hupper
  rw [upperCaseOf, hexpansion, hcons, List.find?_cons, htail, hupper]
  · simp only [Nat.mod_one, and_true]
    by_cases h : 97 ≤ c.toNat ∧ c.toNat ≤ 122
    · have hshift : (c.toNat + -32 : Int).toNat = c.toNat - 32 := by omega
      simp only [h, decide_true, hshift, if_true, and_self]
    · simp only [h, decide_false, if_false]
  · intro run hmatch
    exact (of_decide_eq_true hmatch).1

/-- Upper-casing the letters from a to z leaves all other characters. -/
theorem toNat_lt_of_toUpper {c : Char} (h : c.toUpper.toNat < 128) : c.toNat < 128 := by
  by_cases hletter : 'a'.val ≤ c.val ∧ c.val ≤ 'z'.val
  · exact Nat.lt_of_le_of_lt hletter.2 (by decide)
  · rwa [Char.toUpper, dif_neg hletter] at h

/-- Text that is ASCII in upper case has no other upper case. -/
theorem upperCase_eq_map_toUpper {s : String} (hs : ∀ c ∈ s.toList, c.toUpper.toNat < 128) :
    upperCase s = s.map Char.toUpper := by
  rw [← String.toList_inj, upperCase, String.toList_ofList, String.toList_map, List.map_eq_flatMap]
  exact List.flatMap_congr fun c hc => upperCaseOf_ascii (toNat_lt_of_toUpper (hs c hc))

end Text

namespace CameraModel

variable {camera : CameraModel}

theorem ofName?_name (camera : CameraModel) : ofName? camera.name = some camera := by cases camera <;> rfl

theorem ofId?_id (camera : CameraModel) : ofId? camera.id = some camera := by cases camera <;> rfl

theorem ofName?_eq_some_iff {name : String} : ofName? name = some camera ↔ name = camera.name := by
  constructor
  · intro h
    have hname := List.find?_some h
    exact (beq_iff_eq.mp hname).symm
  · rintro rfl
    exact ofName?_name camera

theorem ofId?_eq_some_iff {i : Int} : ofId? i = some camera ↔ i = camera.id := by
  constructor
  · intro h
    have hid := List.find?_some h
    exact (beq_iff_eq.mp hid).symm
  · rintro rfl
    exact ofId?_id camera

end CameraModel

namespace Datum

/-- The model that a key is meant for: text is compared with the names, all else with the numbers of the models. -/
def Designates (key : Datum) (camera : CameraModel) : Prop :=
  match key with
  | text name => Text.upperCase name = camera.name
  | _ => key.value? = some (camera.id : ℚ)

def camera? : Datum → Option CameraModel
  | text name => CameraModel.ofName? (Text.upperCase name)
  | key => key.whole?.bind CameraModel.ofId?

def unknownCamera : Datum → Fault
  | text name => .unknownCameraName name (CameraModel.all.map CameraModel.name)
  | key => .unknownCameraId key

variable {key : Datum} {camera : CameraModel}

theorem camera?_eq_some_iff : key.camera? = some camera ↔ key.Designates camera := by
  have hnumber : key.whole?.bind CameraModel.ofId? = some camera ↔ key.value? = some (camera.id : ℚ) := by
    simp only [Option.bind_eq_some_iff, CameraModel.ofId?_eq_some_iff, exists_eq_right]
    exact key.whole?_eq_some_iff camera.id
  cases key with
  | text name => exact CameraModel.ofName?_eq_some_iff
  | null | bool b | int i | float x | list items | record fields => exact hnumber

end Datum

namespace CameraModel

theorem ofKey_eq (key : Datum) : ofKey key = key.camera?.elim (.error key.unknownCamera) .ok := by
  cases key with
  | text name =>
    rw [ofKey, ofName, Datum.camera?]
    cases ofName? (Text.upperCase name) <;> rfl
  | null | bool b | int i | float x | list items | record fields =>
    simp only [ofKey, Datum.camera?]
    cases Option.bind _ ofId? <;> rfl

variable {key : Datum} {camera : CameraModel}

/-- A key is resolved to the model that it designates. -/
theorem ofKey_eq_ok_iff : ofKey key = .ok camera ↔ key.Designates camera := by
  rw [ofKey_eq, ← Datum.camera?_eq_some_iff]
  cases key.camera? <;> simp

/-- A key that designates no model is refused, with the key in the message. -/
theorem ofKey_eq_error (hkey : ∀ camera, ¬key.Designates camera) : ofKey key = .error key.unknownCamera := by
  rw [ofKey_eq]
  cases h : key.camera? with
  | none => rfl
  | some camera => exact absurd (Datum.camera?_eq_some_iff.mp h) (hkey camera)

/-- Names are accepted in letters of either case. -/
theorem ofKey_of_map_toUpper {name : String} (h : name.map Char.toUpper = camera.name) :
    ofKey (.text name) = .ok camera := by
  have hall : (camera.name.toList.all fun c => decide (c.toNat < 128)) = true := by cases camera <;> rfl
  have hascii : ∀ c ∈ camera.name.toList, c.toNat < 128 := by simpa using hall
  have hupper : ∀ c ∈ name.toList, c.toUpper.toNat < 128 := by
    intro c hc
    apply hascii
    rw [← h, String.toList_map]
    exact List.mem_map_of_mem hc
  rw [ofKey_eq_ok_iff, Datum.Designates, Text.upperCase_eq_map_toUpper hupper, h]

end CameraModel

namespace Cost

/-- Costs of one class that have the same blocks and evaluate to the same everywhere. -/
structure Alike (c c' : Cost Float) : Prop where
  name : c.name = c'.name
  coreName : c.core.name = c'.core.name
  function : c.function = c'.function

/-- The cost, or the one that it wraps, evaluates the formula at the camera model, and the parameters of the model are
its last block. -/
structure Measures (c : Cost Float) (f : KernelFamily) (camera : CameraModel) : Prop where
  size : c.blockSizes.getLast? = some camera.numParams
  residual : ∃ m h observed scene, c.core = .measurement m h ∧ ∀ free intrinsics,
    (m.map Flushed.mk).residual (free ++ [intrinsics]) = f.error camera observed (scene ++ free) intrinsics

end Cost

namespace CameraFactory

variable (f : CameraFactory) {measurement : CameraModel → Measurement Float}

/-- The handle of the kernel makes no difference. -/
theorem alike_finish (m : Measurement Float) (h h' : KernelTable.Handle) :
    (f.finish (.measurement m h)).Alike (f.finish (.measurement m h')) where
  name := by
    cases hs : f.stddev with
    | none => simp only [finish, hs, Cost.name]
    | some stddev => simp only [finish, hs, Cost.name]
  coreName := by
    rw [core_finish, core_finish]
    rfl
  function := f.function_finish_congr (by rw [Cost.function, Cost.function])

theorem measures_finish (hm : f.measurement = .ok measurement) (camera : CameraModel) (h : KernelTable.Handle) :
    (f.finish (.measurement (measurement camera) h)).Measures f.cost.family camera := by
  have hkernel : ((measurement camera).map Flushed.mk).kernel = f.cost.family.bind camera := by
    rw [Measurement.kernel_map, f.kernel_measurement hm]
  constructor
  · rw [f.blockSizes_finish]
    exact Measurement.getLast?_blockSizes (Measurement.camera?_of_kernel_eq hkernel)
  · obtain ⟨observed, scene, -, hresidual⟩ := Measurement.exists_residual_eq hkernel
    exact ⟨measurement camera, h, observed, scene, f.core_finish, hresidual⟩

end CameraFactory

/-- What is made for a key depends on nothing but the model that the key stands for. -/
theorem Build.outcome_forCamera_of_designates {key : Datum} {camera : CameraModel} (hkey : key.Designates camera)
    (f : CameraFactory) (label : String) (s : KernelTable × List Log) :
    ∃ h, (outcome (Build.forCamera label key f.build) s).1 =
      f.measurement.map fun m => f.finish (.measurement (m camera) h) := by
  rw [outcome_forCamera, CameraModel.ofKey_eq_ok_iff.mpr hkey]
  exact ⟨_, f.outcome_build_fst camera _⟩

namespace CameraModel

/-- Every key is resolved exactly, and costs that are made for two keys of one model are alike. Whether they can be made
is decided by the other arguments. -/
theorem dispatch_exact :
    (∀ name, ofKey (.text name) = ofName name) ∧
    (∀ key camera, ofKey key = .ok camera ↔ key.Designates camera) ∧
    (∀ key : Datum, (∀ camera, ¬key.Designates camera) →
      ofKey key = .error key.unknownCamera ∧ key.unknownCamera.family = .value) ∧
    ∀ (key key' : Datum) (camera : CameraModel), key.Designates camera → key'.Designates camera →
      ∀ (f : CameraFactory) (label : String) (s s' : KernelTable × List Log),
        match f.measurement with
        | .error fault => (outcome (Build.forCamera label key f.build) s).1 = .error fault ∧
            (outcome (Build.forCamera label key' f.build) s').1 = .error fault
        | .ok _ => ∃ c c', (outcome (Build.forCamera label key f.build) s).1 = .ok c ∧
            (outcome (Build.forCamera label key' f.build) s').1 = .ok c' ∧
              c.Alike c' ∧ c.Measures f.cost.family camera := by
  refine ⟨fun name => rfl, fun key camera => ofKey_eq_ok_iff, fun key hkey => ⟨ofKey_eq_error hkey, ?_⟩, ?_⟩
  · cases key <;> rfl
  · intro key key' camera hkey hkey' f label s s'
    obtain ⟨h, hmade⟩ := Build.outcome_forCamera_of_designates hkey f label s
    obtain ⟨h', hmade'⟩ := Build.outcome_forCamera_of_designates hkey' f label s'
    cases hm : f.measurement with
    | error fault =>
      rw [hm] at hmade hmade'
      exact ⟨hmade, hmade'⟩
    | ok m =>
      rw [hm] at hmade hmade'
      exact ⟨_, _, hmade, hmade', f.alike_finish (m camera) h h', f.measures_finish hm camera h⟩

/-- A name with a ligature, whose upper case is longer, and the number of the model as a double. -/
theorem dispatch_exact_ligature :
    let f : CameraFactory := ⟨.reprojection (.list [.float 1, .float 2]), some 2⟩
    ∃ c c', (outcome (Build.forCamera "noise" (.text "simple_radial_\ufb01sheye") f.build) (.empty, [])).1 = .ok c ∧
      (outcome (Build.forCamera "noise" (.float 8) f.build) (.empty, [])).1 = .ok c' ∧
        c.Alike c' ∧ c.Measures .reprojection .simpleRadialFisheye := by
  intro f
  have hname : (Datum.text "simple_radial_\ufb01sheye").Designates .simpleRadialFisheye := by
    change Text.upperCase _ = _
    decide +kernel
  have hnumber : (Datum.float 8).Designates .simpleRadialFisheye := by
    have hwhole : (Datum.float 8).whole? = some 8 := by decide +kernel
    exact (Datum.whole?_eq_some_iff _ _).mp hwhole
  have hstddev : ((2 : Float).isFinite && 0 < (2 : Float)) = true := by decide +kernel
  have hm : f.measurement = .ok fun camera => .reprojection camera ⟨1, 2⟩ := by
    simp only [f, CameraFactory.measurement, hstddev, if_true]
    rfl
  have halike := dispatch_exact.2.2.2 _ _ _ hname hnumber f "noise" (.empty, []) (.empty, [])
  rwa [hm] at halike

end CameraModel

end BundleAdjustment
