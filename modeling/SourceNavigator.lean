import SourceNavigator.Main
import SourceNavigator.Settings.Template
import SourceNavigator.Json.Writer
import SourceNavigator.Proofs.Excerpt.Endings
import SourceNavigator.Proofs.Excerpt.Extent
import SourceNavigator.Proofs.Navigation.Again
import SourceNavigator.Proofs.Navigation.FileRange
import SourceNavigator.Proofs.Navigation.Loaded
import SourceNavigator.Proofs.Navigation.Noninterference
import SourceNavigator.Proofs.Navigation.Scope
import SourceNavigator.Proofs.Navigation.Usage
import SourceNavigator.Proofs.Path.Acceptance
import SourceNavigator.Proofs.Search.Agreement
import SourceNavigator.Proofs.Search.Aggregation
import SourceNavigator.Proofs.Search.Decoding
import SourceNavigator.Proofs.Search.Files
import SourceNavigator.Proofs.Search.Request
import SourceNavigator.Proofs.Search.Stream
import SourceNavigator.Proofs.Settings.Again
import SourceNavigator.Proofs.Settings.Layering
import SourceNavigator.Proofs.Tree.Depth
import SourceNavigator.Proofs.Tree.Drawing
import SourceNavigator.Proofs.Tree.Nesting
import SourceNavigator.Proofs.Tree.Recovery
