import StereoMapping.Main
import StereoMapping.Proofs.Window.History
import StereoMapping.Proofs.Correspondence.PairTable
import StereoMapping.Proofs.Odometry.Session
import StereoMapping.Proofs.Odometry.Window
import StereoMapping.Proofs.Cloud.VoxelMap
import StereoMapping.Proofs.Odometry.Publish
import StereoMapping.Proofs.Odometry.Outcome
import StereoMapping.Proofs.Odometry.Replay
import StereoMapping.Proofs.Geometry.RigidMotion
import StereoMapping.Proofs.Odometry.Drift
import StereoMapping.Proofs.Window.Removal
import StereoMapping.Proofs.Window.Lists
import StereoMapping.Proofs.Keypoint.Features
import StereoMapping.Proofs.Cloud.Additions
import StereoMapping.Proofs.Cloud.Log
import StereoMapping.Proofs.Cloud.Extraction
import StereoMapping.Proofs.Window.Places
import StereoMapping.Proofs.Odometry.Access
import StereoMapping.Proofs.Cloud.Grid
import StereoMapping.Proofs.Cloud.Regrid
import StereoMapping.Proofs.Cloud.Cells
import StereoMapping.Proofs.Cloud.Origins
import StereoMapping.Proofs.Cloud.Mean
import StereoMapping.Proofs.Number.Special
import StereoMapping.Proofs.Cloud.Retrieval
import StereoMapping.Proofs.Odometry.Setup
import StereoMapping.Proofs.Correspondence.OneToOne
import StereoMapping.Proofs.Odometry.DenseSession
import StereoMapping.Proofs.Geometry.Alignment
import StereoMapping.Proofs.Number.Stored
import StereoMapping.Proofs.Window.PoseChain
import StereoMapping.Proofs.Correspondence.Triangle
import StereoMapping.Proofs.Number.Rounding
import StereoMapping.Proofs.Number.Numeral
import StereoMapping.Proofs.Number.Shortest
import StereoMapping.Proofs.Trajectory.Lines
import StereoMapping.Proofs.Trajectory.Record
import StereoMapping.Proofs.Trajectory.File
import StereoMapping.Proofs.Trajectory.Association
import StereoMapping.Proofs.Image.Disparity
import StereoMapping.Proofs.Camera.Triangulation
import StereoMapping.Proofs.Component.Memory
import StereoMapping.Proofs.Component.Configuration
import StereoMapping.Proofs.Image.Intensity
import StereoMapping.Proofs.Window.Links
import StereoMapping.Proofs.Geometry.LeastSquares
import StereoMapping.Proofs.Cloud.Registration
import StereoMapping.Proofs.Cloud.Nearest
import StereoMapping.Proofs.Cloud.CellRange
import StereoMapping.Proofs.Number.Order
import StereoMapping.Proofs.Keypoint.Matching
import StereoMapping.Proofs.Image.BlockCost
import StereoMapping.Proofs.Image.BestDisparity
import StereoMapping.Proofs.Number.Product
import StereoMapping.Proofs.Keypoint.Nearest
import StereoMapping.Proofs.Sorting
import StereoMapping.Proofs.Image.Corner
import StereoMapping.Proofs.Geometry.Composition
import StereoMapping.Proofs.Image.Symmetry
import StereoMapping.Proofs.Keypoint.Contract
import StereoMapping.Proofs.Number.Sum
import StereoMapping.Proofs.Image.Patch
import StereoMapping.Proofs.Keypoint.Description
import StereoMapping.Proofs.Window.Slot
import StereoMapping.Proofs.Number.Quotient
import StereoMapping.Proofs.Cloud.Counts
