import TopicFilter.Main
import TopicFilter.Session
import TopicFilter.Proofs.Store.Running
import TopicFilter.Proofs.Store.Keeping
import TopicFilter.Proofs.Store.Listing
import TopicFilter.Proofs.Matcher.Standing
import TopicFilter.Proofs.Matcher.Positions
import TopicFilter.Proofs.Deriver.Deriving
import TopicFilter.Proofs.Matcher.Abstraction
import TopicFilter.Proofs.Matcher.Agreement
import TopicFilter.Proofs.Frame.Columns
import TopicFilter.Proofs.Frame.Matching
import TopicFilter.Proofs.Session.Making
import TopicFilter.Proofs.Session.Performing
import TopicFilter.Proofs.Session.Assigning
import TopicFilter.Proofs.Session.Lasting
import TopicFilter.Proofs.Matcher.Labels
import TopicFilter.Proofs.Deriver.Gathering
import TopicFilter.Proofs.Matcher.RawPayloads
import TopicFilter.Proofs.Settings.Loading
import TopicFilter.Proofs.Settings.Home
import TopicFilter.Proofs.Settings.Obtaining
import TopicFilter.Proofs.Settings.Usable
import TopicFilter.Proofs.Frame.Plain
import TopicFilter.Proofs.Demo.Batch
import TopicFilter.Proofs.Matcher.Recording
import TopicFilter.Proofs.Matcher.Examining
import TopicFilter.Proofs.Matcher.Refusing
import TopicFilter.Proofs.Matcher.Compiling
import TopicFilter.Proofs.Topic.Order
import TopicFilter.Proofs.Topic.Spelling
import TopicFilter.Proofs.Matcher.Rendering
import TopicFilter.Proofs.Topic.Number
import TopicFilter.Proofs.Frame.Deriving
import TopicFilter.Proofs.Frame.Filtering
import TopicFilter.Proofs.Json.LineEnds
import TopicFilter.Proofs.Text.Utf8
import TopicFilter.Proofs.Settings.Naming
import TopicFilter.Proofs.Path.Anchoring
import TopicFilter.Proofs.Deriver.Spelling
import TopicFilter.Proofs.Frame.Blank
import TopicFilter.Proofs.Matcher.RoundTrip
import TopicFilter.Proofs.Settings.Rechecking
