import TypedClient.Main
import TypedClient.FileSystem.Workspace
import TypedClient.TupleShape.Encoding
import TypedClient.Proofs.Callable.Outcome
import TypedClient.Proofs.Callable.Pruning
import TypedClient.Proofs.Callable.Reading
import TypedClient.Proofs.Callable.Transmission
import TypedClient.Proofs.Client.Designation
import TypedClient.Proofs.Client.Overload
import TypedClient.Proofs.Client.Relinking
import TypedClient.Proofs.CommandLine.Generate
import TypedClient.Proofs.Enumeration
import TypedClient.Proofs.Generation.Distinctness
import TypedClient.Proofs.Generation.Registration
import TypedClient.Proofs.Generation.Reordering
import TypedClient.Proofs.Generation.Resolution
import TypedClient.Proofs.Metadata.Loading
import TypedClient.Proofs.Rendering.Capture
import TypedClient.Proofs.Rendering.Comment
import TypedClient.Proofs.Rendering.EmptyResponse
import TypedClient.Proofs.Rendering.MethodNames
import TypedClient.Proofs.Rendering.Omission
import TypedClient.Proofs.Rendering.Presence
import TypedClient.Proofs.Rendering.Repetition
import TypedClient.Proofs.Rendering.UrlLiteral
import TypedClient.Proofs.Route.Constraint
import TypedClient.Proofs.Scope.NormalForm
import TypedClient.Proofs.TupleShape.Encoding
import TypedClient.Proofs.TypeScript.SettledName
import TypedClient.Proofs.TypeScript.TypeText
import TypedClient.Proofs.TupleShape.Folding
