import Ecclesia.Predicates.Blanks
import Ecclesia.Subscription.RoundTrip
import Ecclesia.Planner.Timing
import Ecclesia.Planner.Modes
import Ecclesia.Planner.Resume
import Ecclesia.Planner.Subscribing
import Ecclesia.Validator.Agreement
import Ecclesia.Planner.Freshness
import Ecclesia.Verification.Symmetry
import Ecclesia.Validator.Accepts
import Ecclesia.Server.RedfishId
import Ecclesia.Server.Subscribe
import Ecclesia.StubArbiter.Discipline
import Ecclesia.Engine.Answers
import Ecclesia.Transport.Sessions
import Ecclesia.Engine.Cancellation
import Ecclesia.Planner.Deposits
import Ecclesia.Router.Agreement
import Ecclesia.StepPlanner.Mirroring
import Ecclesia.Sysmodel.Stops
import Ecclesia.Topology.Ownership
import Ecclesia.Topology.Once
import Ecclesia.Override.Covered
import Ecclesia.StepPlanner.Delivery
import Ecclesia.Predicates.Acceptance
import Ecclesia.Predicates.Decoding
import Ecclesia.Predicates.Separation
import Ecclesia.Predicates.Removal
import Ecclesia.Planner.Collecting
import Ecclesia.Normalizer.RootChassis
import Ecclesia.Predicates.FuzzyOrder
import Ecclesia.Planner.SingleResource
import Ecclesia.Predicates.WholeNames
import Ecclesia.Normalizer.Survival
import Ecclesia.Query.Identified
import Ecclesia.Query.ValueAtPath
import Ecclesia.Query.RoundTrip
import Ecclesia.Verification.ListOrder
import Ecclesia.Transport.DeepCache
import Ecclesia.Router.LastSelection
import Ecclesia.Override.Fits
import Ecclesia.Topology.Devpaths
import Ecclesia.Topology.Replaceable
import Ecclesia.StepPlanner.Unpopulated
import Ecclesia.Json.Resolution
import Ecclesia.QueryValidator.AnyOrder
import Ecclesia.QueryValidator.DisallowedPredicates
import Ecclesia.RedPath.NestedFilter
import Ecclesia.Smbios.Exactness
import Ecclesia.HttpIntf.Roots
import Ecclesia.Pci.Subsystem
import Ecclesia.Pci.Resources
import Ecclesia.Usb.Names
import Ecclesia.File.LockFile
import Ecclesia.Time.Proto
import Ecclesia.Transport.StructConversion
import Ecclesia.Redfish.ToProto
import Ecclesia.HttpIntf.Views
import Ecclesia.Codec.Bits
import Ecclesia.Codec.SixBitAscii
import Ecclesia.File.Path
import Ecclesia.Strings.NaturalSort
import Ecclesia.Json.Pointer
import Ecclesia.Thread.ThreadPool
import Ecclesia.File.Writers
import Ecclesia.Router.Patterns
import Ecclesia.Planner.Built
