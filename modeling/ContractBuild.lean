import ContractBuild.Main
import ContractBuild.Proofs.Build.AssemblyOnly
import ContractBuild.Proofs.Build.InputErrors
import ContractBuild.Proofs.Build.InputFiles
import ContractBuild.Proofs.Build.LinkOrder
import ContractBuild.Proofs.Build.LinkPaths
import ContractBuild.Proofs.Build.MergedAssembly
import ContractBuild.Proofs.Build.Undisturbed
import ContractBuild.Tool.Scripted
import ContractBuild.Proofs.FileSystem.Stored
import ContractBuild.Proofs.FileSystem.Overwriting
import ContractBuild.Proofs.FileSystem.Repetition
import ContractBuild.Proofs.Tool.Recipe
import ContractBuild.Proofs.Build.Repeats
import ContractBuild.Proofs.Build.Rebuild
import ContractBuild.Proofs.CommandLine.Report
import ContractBuild.Proofs.CommandLine.RoundTrip
import ContractBuild.Proofs.Artifact.LifeCycle
import ContractBuild.Proofs.Build.Artifacts
import ContractBuild.Proofs.Text.CodeLine
import ContractBuild.Proofs.Artifact.FailedReservation
import ContractBuild.Proofs.Build.CopyOut
import ContractBuild.Proofs.Build.Sidecar
import ContractBuild.Proofs.Build.Refinement
import ContractBuild.Proofs.Build.EmittedAssembly
import ContractBuild.Proofs.Input.Classification
import ContractBuild.Proofs.Options.Resolution
import ContractBuild.Proofs.CommandLine.Flags
