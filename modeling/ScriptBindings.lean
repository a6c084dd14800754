import ScriptBindings.Main
import ScriptBindings.Proofs.Index.PathTree
import ScriptBindings.Proofs.Index.TableOrder
import ScriptBindings.Proofs.Index.Execution
import ScriptBindings.Proofs.Emission
import ScriptBindings.Proofs.Name.Scope
import ScriptBindings.Proofs.SortedSet
import ScriptBindings.Proofs.Plan.Agreement
import ScriptBindings.Proofs.Plan.Registration
import ScriptBindings.Proofs.Dictionary
import ScriptBindings.Proofs.Files.Path
import ScriptBindings.Proofs.Files.Writing
import ScriptBindings.Proofs.Generation.Files
import ScriptBindings.Proofs.Visibility.Erasure
import ScriptBindings.Proofs.Emission.Failure
import ScriptBindings.Proofs.Plan.Completeness
import ScriptBindings.Proofs.Visibility.Redaction
import ScriptBindings.Proofs.Database.Validation
import ScriptBindings.Proofs.Plan.Names
import ScriptBindings.Proofs.CallShape
import ScriptBindings.Proofs.Plan.Modularity
import ScriptBindings.Proofs.Files.View
import ScriptBindings.Proofs.CommandLine
import ScriptBindings.Proofs.Files.Closed
import ScriptBindings.Proofs.Files.Listing
import ScriptBindings.Proofs.Files.Rewriting
import ScriptBindings.Proofs.Generation.Interruption
import ScriptBindings.Proofs.Generation.Repetition
import ScriptBindings.Proofs.Database.Refusal
import ScriptBindings.Proofs.Plan.Blame
import ScriptBindings.Proofs.Plan.Neutrality
import ScriptBindings.Proofs.Database.Format
import ScriptBindings.Proofs.Generation.Headers
import ScriptBindings.Proofs.FirstOccurrence
import ScriptBindings.Proofs.Index.Depth
import ScriptBindings.Proofs.Index.Completion
import ScriptBindings.Proofs.Database.Partition
import ScriptBindings.Proofs.Emission.Expression
import ScriptBindings.Proofs.Emission.Operators
import ScriptBindings.Proofs.Emission.Members
import ScriptBindings.Proofs.Blank
import ScriptBindings.Proofs.Name.Identifier
import ScriptBindings.Proofs.Name.TypeName
import ScriptBindings.Proofs.Emission.StaticMembers
import ScriptBindings.Proofs.Operator.Token
import ScriptBindings.Proofs.Operator.Collision
import ScriptBindings.Proofs.Entity.Signature
import ScriptBindings.Proofs.Emission.Constructors
import ScriptBindings.Proofs.Plan.ObjectNames
import ScriptBindings.Proofs.Name.TemplateType
import ScriptBindings.Proofs.Index.Insertions
import ScriptBindings.Proofs.Index.LoaderPath
import ScriptBindings.Proofs.ByteOrder
import ScriptBindings.Proofs.Emission.Includes
import ScriptBindings.Proofs.Name.IncludePath
import ScriptBindings.Proofs.Files.Walk
import ScriptBindings.Proofs.Generation.Discovery
