import TypeGraph.Main
import TypeGraph.Report.Decode
import TypeGraph.Proofs.Query.Triple
import TypeGraph.Proofs.Registry.Extension
import TypeGraph.Proofs.Registry.Sound
import TypeGraph.Proofs.Query.Fill
import TypeGraph.Proofs.Supertype.Check
import TypeGraph.Proofs.Supertype.Accepted
import TypeGraph.Proofs.Supertype.Acyclic
import TypeGraph.Proofs.Supertype.Walk
import TypeGraph.Proofs.Loading.Source
import TypeGraph.Proofs.Run
import TypeGraph.Proofs.Supertype.Termination
import TypeGraph.Proofs.Supertype.WellFormed
import TypeGraph.Proofs.Supertype.Answers
import TypeGraph.Proofs.Conversion.Widening
import TypeGraph.Proofs.Conversion.Assignable
import TypeGraph.Proofs.Overload.MostSpecific
import TypeGraph.Proofs.Overload.Call
import TypeGraph.Proofs.Command.Resolve
import TypeGraph.Proofs.Descriptor.Names
import TypeGraph.Proofs.Descriptor.Grammar
import TypeGraph.Proofs.Descriptor.RoundTrip
import TypeGraph.Proofs.ClassPath.Keys
import TypeGraph.Proofs.Loading.Faithful
import TypeGraph.Proofs.Loading.Unrolled
import TypeGraph.Proofs.Loading.Calls
import TypeGraph.Proofs.Loading.Failure
import TypeGraph.Proofs.Loading.Complete
import TypeGraph.Proofs.Loading.Finding
import TypeGraph.Proofs.Loading.Outcome
import TypeGraph.Proofs.Loading.Order
import TypeGraph.Proofs.Loading.Wrapping
import TypeGraph.Proofs.Loading.BrokenArray
import TypeGraph.Proofs.Loading.Closed
import TypeGraph.Proofs.Overload.Applicable
import TypeGraph.Proofs.Supertype.Chain
import TypeGraph.Proofs.Query.Coincide
import TypeGraph.Proofs.Query.Transparent
import TypeGraph.Proofs.Supertype.Explored
import TypeGraph.Proofs.Query.Answered
import TypeGraph.Proofs.Loading.Population
import TypeGraph.Proofs.Command.Checked
import TypeGraph.Proofs.Supertype.LeadingBack
import TypeGraph.Proofs.Supertype.Reachability
import TypeGraph.Proofs.Member.Signature
import TypeGraph.Proofs.Member.Gathered
import TypeGraph.Proofs.Member.Inherited
import TypeGraph.Proofs.Query.Lasting
import TypeGraph.Proofs.Member.Scope
import TypeGraph.Proofs.Member.Absent
import TypeGraph.Proofs.Query.Permanent
import TypeGraph.Proofs.Member.Generation
import TypeGraph.Proofs.Member.Synthetic
import TypeGraph.Proofs.Member.Fields
import TypeGraph.Proofs.Report.Suggestions
import TypeGraph.Proofs.Member.Nesting
