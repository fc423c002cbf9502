import BundleAdjustment.Camera.Model
import BundleAdjustment.Fault
import BundleAdjustment.Text.UpperCase

/-! # Camera models by key

A key is the number of a model or its name. Names are compared in upper case.
-/

namespace BundleAdjustment.CameraModel

def ofName? (name : String) : Option CameraModel := all.find? fun m => m.name == name

def ofName (name : String) : Except Fault CameraModel :=
  match ofName? (Text.upperCase name) with
  | some m => pure m
  | none => throw (.unknownCameraName name (all.map CameraModel.name))

def ofId? (i : Int) : Option CameraModel := all.find? fun m => (m.id : Int) == i

/-- The model that a key stands for: text is a name, anything else is compared with the numbers of the models. -/
def ofKey (key : Datum) : Except Fault CameraModel :=
  match key with
  | .text name => ofName name
  | _ => match key.whole?.bind ofId? with
    | some m => pure m
    | none => throw (.unknownCameraId key)

end BundleAdjustment.CameraModel
