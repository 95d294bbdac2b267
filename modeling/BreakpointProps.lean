import BreakpointProps.Element.Binding
import BreakpointProps.Element.Json
import BreakpointProps.Main
import BreakpointProps.ResponsiveProps.Json
import BreakpointProps.Proofs.Binding.Interception
import BreakpointProps.Proofs.Build.Collision
import BreakpointProps.Proofs.Build.DryRun
import BreakpointProps.Proofs.Build.Links
import BreakpointProps.Proofs.Build.Occurrences
import BreakpointProps.Proofs.Build.Order
import BreakpointProps.Proofs.Build.Totals
import BreakpointProps.Proofs.Bundler
import BreakpointProps.Proofs.Config
import BreakpointProps.Proofs.Element.Json
import BreakpointProps.Proofs.Element.Layers
import BreakpointProps.Proofs.FileSystem.Atomic
import BreakpointProps.Proofs.Path.Resolved
import BreakpointProps.Proofs.Report.Json
import BreakpointProps.Proofs.ResponsiveProps.Shown
import BreakpointProps.Proofs.Rewrite.Attributes
import BreakpointProps.Proofs.Rewrite.Frame
import BreakpointProps.Proofs.Rewrite.Grammar
import BreakpointProps.Proofs.Rewrite.Reread
import BreakpointProps.Proofs.Rewrite.Spelling
import BreakpointProps.Proofs.Rewrite.Spread
import BreakpointProps.Proofs.Rewrite.Stages
