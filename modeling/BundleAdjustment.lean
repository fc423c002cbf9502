import BundleAdjustment.Camera.Image
import BundleAdjustment.Camera.Lookup
import BundleAdjustment.Collection.Basic
import BundleAdjustment.Collection.Fields
import BundleAdjustment.Cost.Build
import BundleAdjustment.Covariance
import BundleAdjustment.Pose.Transform
import BundleAdjustment.Problem.Collected
import BundleAdjustment.Problem.Solve
import BundleAdjustment.Proofs.Cost.Conditioning
import BundleAdjustment.Proofs.Covariance.Whitening
import BundleAdjustment.Proofs.Derivative.Jacobian
import BundleAdjustment.Proofs.Exact.Hom
import BundleAdjustment.Proofs.Pose.Motions
import BundleAdjustment.Proofs.Pose.Similarities
import BundleAdjustment.Proofs.Prior.DoubleCover
import BundleAdjustment.Proofs.Reprojection.Gauge
import BundleAdjustment.Proofs.Reprojection.Rig
import BundleAdjustment.Proofs.Rotation.LogMap
import BundleAdjustment.Rotation.Operation
import BundleAdjustment.Rotation.Unit
import BundleAdjustment.Solver.Config
import BundleAdjustment.Solver.Result
import BundleAdjustment.Proofs.Camera.Nesting
import BundleAdjustment.Proofs.Rotation.SpecialOrthogonal
import BundleAdjustment.Proofs.Pose.MatrixForm
import BundleAdjustment.Proofs.Problem.Operations
import BundleAdjustment.Proofs.Problem.Registration
import BundleAdjustment.Proofs.Problem.History
import BundleAdjustment.Proofs.Camera.FieldOfView
import BundleAdjustment.Proofs.Reprojection.Captured
import BundleAdjustment.Proofs.Covariance.Noise
import BundleAdjustment.Proofs.Prior.Agreement
import BundleAdjustment.Proofs.Epipolar.Exchange
import BundleAdjustment.Proofs.Epipolar.Scale
import BundleAdjustment.Proofs.Reprojection.Prediction
import BundleAdjustment.Proofs.Covariance.Tolerance
import BundleAdjustment.Proofs.Cost.Composition
import BundleAdjustment.Proofs.Camera.Equidistant
import BundleAdjustment.Proofs.Rotation.Equivariance
import BundleAdjustment.Proofs.Pose.MatrixAction
import BundleAdjustment.Proofs.Prior.CameraCenter
import BundleAdjustment.Proofs.Camera.Roll
import BundleAdjustment.Proofs.Camera.FieldOfViewSeries
import BundleAdjustment.Proofs.Cost.Differences
import BundleAdjustment.Proofs.Collection.Reading
import BundleAdjustment.Proofs.Collection.Views
import BundleAdjustment.Proofs.Cost.Sharing
import BundleAdjustment.Proofs.Camera.Dispatch
