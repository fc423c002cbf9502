/-! # Camera models

The closed set of camera models, with the names of their parameters in order.
-/

namespace BundleAdjustment

inductive CameraModel where
  | simplePinhole
  | pinhole
  | simpleRadial
  | radial
  | openCV
  | openCVFisheye
  | fullOpenCV
  | fov
  | simpleRadialFisheye
  | radialFisheye
  | thinPrismFisheye
  deriving DecidableEq

namespace CameraModel

/-- All models, in the order of their numbers. -/
def all : List CameraModel :=
  [simplePinhole, pinhole, simpleRadial, radial, openCV, openCVFisheye, fullOpenCV, fov, simpleRadialFisheye,
   radialFisheye, thinPrismFisheye]

def id : CameraModel → Nat
  | simplePinhole => 0
  | pinhole => 1
  | simpleRadial => 2
  | radial => 3
  | openCV => 4
  | openCVFisheye => 5
  | fullOpenCV => 6
  | fov => 7
  | simpleRadialFisheye => 8
  | radialFisheye => 9
  | thinPrismFisheye => 10

def name : CameraModel → String
  | simplePinhole => "SIMPLE_PINHOLE"
  | pinhole => "PINHOLE"
  | simpleRadial => "SIMPLE_RADIAL"
  | radial => "RADIAL"
  | openCV => "OPENCV"
  | openCVFisheye => "OPENCV_FISHEYE"
  | fullOpenCV => "FULL_OPENCV"
  | fov => "FOV"
  | simpleRadialFisheye => "SIMPLE_RADIAL_FISHEYE"
  | radialFisheye => "RADIAL_FISHEYE"
  | thinPrismFisheye => "THIN_PRISM_FISHEYE"

/-- The names of the parameters, in the order in which a camera stores them. -/
def parameterNames : CameraModel → List String
  | simplePinhole => ["f", "cx", "cy"]
  | pinhole => ["fx", "fy", "cx", "cy"]
  | simpleRadial | simpleRadialFisheye => ["f", "cx", "cy", "k"]
  | radial | radialFisheye => ["f", "cx", "cy", "k1", "k2"]
  | openCV => ["fx", "fy", "cx", "cy", "k1", "k2", "p1", "p2"]
  | openCVFisheye => ["fx", "fy", "cx", "cy", "k1", "k2", "k3", "k4"]
  | fullOpenCV => ["fx", "fy", "cx", "cy", "k1", "k2", "p1", "p2", "k3", "k4", "k5", "k6"]
  | fov => ["fx", "fy", "cx", "cy", "omega"]
  | thinPrismFisheye => ["fx", "fy", "cx", "cy", "k1", "k2", "p1", "p2", "k3", "k4", "sx1", "sy1"]

def numParams (m : CameraModel) : Nat := m.parameterNames.length

end CameraModel

end BundleAdjustment
