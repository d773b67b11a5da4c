import Template.ConfigFile
import Template.Files.Journal
import Template.Files.Memory
import Template.View.Engine
import Template.CommandLine.Arguments
import Template.CommandLine.Commands
import Template.CommandLine.Program
import Template.Files.Disk
import Template.Proofs.CodePart
import Template.Proofs.Comment
import Template.Proofs.Directive
import Template.Proofs.EchoPass
import Template.Proofs.ErrorOffset
import Template.Proofs.Freshness
import Template.Proofs.LiteralEcho
import Template.Proofs.Segment
import Template.Proofs.SegmentEcho
import Template.Proofs.SegmentMark
import Template.Proofs.SegmentRender
import Template.Proofs.NativeSpan
import Template.Proofs.DirectiveParse
import Template.Proofs.DirectiveScan
import Template.Proofs.EchoCut
import Template.Proofs.Lookup
import Template.Proofs.CutMarkup
import Template.Proofs.UnknownDirective
import Template.Proofs.Reconfigure
import Template.Proofs.ViewPlace
import Template.Proofs.CommentErased
import Template.Proofs.EmittedCode
import Template.Proofs.NativeText
import Template.Proofs.CallEffect
import Template.Proofs.FooterTail
import Template.Proofs.DiskTree
import Template.Proofs.DiskStore
import Template.Proofs.FolderWalk
import Template.Proofs.FolderRefresh
import Template.Proofs.CompileAgain
import Template.Proofs.EchoEnd
import Template.Proofs.OneTemplate
import Template.Proofs.WarmEngine
import Template.Proofs.LineEndingRender
import Template.Proofs.OpenBraces
import Template.Proofs.Nesting
import Template.Proofs.MatchingParen
import Template.Proofs.ReceivedArgument
import Template.Proofs.EchoReread
import Template.Proofs.FolderFiles
import Template.Proofs.StoreFrame
import Template.Proofs.EachAlone
import Template.Proofs.AddedTemplates
import Template.Proofs.CommentReading
import Template.Proofs.OpenMark
import Template.Proofs.EchoCover
import Template.Proofs.CharBoundary
import Template.Proofs.ByteScan
import Template.Proofs.Slicing
import Template.Proofs.Request
import Template.Proofs.CanonicalName
import Template.Proofs.RequestDepth
import Template.Proofs.NestingLimit
