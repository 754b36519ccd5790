import DataBinding.Access.Accessor
import DataBinding.Access.Delegate
import DataBinding.Binding.Basic
import DataBinding.Binding.Build
import DataBinding.Binding.Dispatch
import DataBinding.Binding.Dispose
import DataBinding.Binding.Set
import DataBinding.Command
import DataBinding.Compiled.Basic
import DataBinding.Compiled.Compile
import DataBinding.Compiled.Run
import DataBinding.Configuration
import DataBinding.Decimal.Binary
import DataBinding.Decimal.Layout
import DataBinding.Decimal.Reading
import DataBinding.Decimal.Shortest
import DataBinding.Engine
import DataBinding.Error
import DataBinding.Event.HandlerList
import DataBinding.Event.Raise
import DataBinding.Expr.Basic
import DataBinding.Expr.Build
import DataBinding.Expr.Eval
import DataBinding.Expr.Text
import DataBinding.Flags
import DataBinding.Host.Basic
import DataBinding.Host.Body
import DataBinding.Host.Member
import DataBinding.Json.Canonical
import DataBinding.Json.Document
import DataBinding.Json.Number
import DataBinding.Json.Token
import DataBinding.Operator
import DataBinding.Proofs.Access.Lookups
import DataBinding.Proofs.Access.Nearest
import DataBinding.Proofs.Access.Visible
import DataBinding.Proofs.Binding.Dispose
import DataBinding.Proofs.Binding.Follow
import DataBinding.Proofs.Binding.Refusal
import DataBinding.Proofs.Binding.Retry
import DataBinding.Proofs.Compiled.Agree
import DataBinding.Proofs.Compiled.Call
import DataBinding.Proofs.Compiled.Dispatch
import DataBinding.Proofs.Compiled.Getter
import DataBinding.Proofs.Compiled.Resolve
import DataBinding.Proofs.Compiled.Retained
import DataBinding.Proofs.Compiled.Separate
import DataBinding.Proofs.Compiled.Session
import DataBinding.Proofs.Compiled.Shared
import DataBinding.Proofs.Compiled.Shape
import DataBinding.Proofs.Effect
import DataBinding.Proofs.Event.Stack
import DataBinding.Proofs.Expr.Arithmetic
import DataBinding.Proofs.Expr.Quiet
import DataBinding.Proofs.Host.Invoke
import DataBinding.Proofs.Host.Property
import DataBinding.Proofs.Host.Quiet
import DataBinding.Proofs.Network.Bind
import DataBinding.Proofs.Network.Echo
import DataBinding.Proofs.Network.Endpoint
import DataBinding.Proofs.Network.Run
import DataBinding.Proofs.Network.Sound
import DataBinding.Proofs.Network.Spread
import DataBinding.Proofs.Network.State
import DataBinding.Proofs.Queue.Circulate
import DataBinding.Proofs.Queue.Drain
import DataBinding.Proofs.Queue.Pair
import DataBinding.Proofs.Run.Construct
import DataBinding.Proofs.Run.HostCode
import DataBinding.Proofs.Run.Inert
import DataBinding.Proofs.Run.Lasting
import DataBinding.Proofs.Run.Later
import DataBinding.Proofs.Run.OneTime
import DataBinding.Proofs.Run.Regime
import DataBinding.Proofs.Run.Resolve
import DataBinding.Proofs.Schema.Ancestors
import DataBinding.Proofs.Schema.Lineage
import DataBinding.Proofs.Schema.Nearest
import DataBinding.Proofs.Set.Adding
import DataBinding.Proofs.Set.Built
import DataBinding.Proofs.Subscription.Account
import DataBinding.Proofs.Subscription.Attach
import DataBinding.Proofs.Subscription.Conserved
import DataBinding.Proofs.Subscription.Create
import DataBinding.Proofs.Subscription.Failed
import DataBinding.Proofs.Subscription.Made
import DataBinding.Proofs.Subscription.Occurrence
import DataBinding.Proofs.Subscription.Settle
import DataBinding.Proofs.Subscription.Stake
import DataBinding.Proofs.Tracking.Build
import DataBinding.Proofs.Tracking.Code
import DataBinding.Proofs.Tracking.Engine
import DataBinding.Proofs.Tracking.Expr
import DataBinding.Proofs.Tracking.OneWay
import DataBinding.Proofs.Tracking.Release
import DataBinding.Proofs.Tracking.Source
import DataBinding.Proofs.Tracking.Step
import DataBinding.Proofs.Tracking.Tame
import DataBinding.Proofs.Trigger.Calls
import DataBinding.Proofs.Trigger.Collect
import DataBinding.Proofs.Trigger.Refusal
import DataBinding.Proofs.Trigger.Registry
import DataBinding.Proofs.Value.Convert
import DataBinding.Proofs.Value.Equivalence
import DataBinding.Proofs.Value.Numeral
import DataBinding.Proofs.Value.Same
import DataBinding.Registration
import DataBinding.Schema.Basic
import DataBinding.Schema.Lookup
import DataBinding.Schema.Require
import DataBinding.Script
import DataBinding.Settings
import DataBinding.Table
import DataBinding.Text.Blank
import DataBinding.Text.Combining
import DataBinding.Text.Quoted
import DataBinding.Text.Ranges
import DataBinding.Text.Unprintable
import DataBinding.Trigger.Attach
import DataBinding.Trigger.Basic
import DataBinding.Trigger.Collect
import DataBinding.Value.Basic
import DataBinding.Value.Convert
import DataBinding.Value.Equality
import DataBinding.Value.Text
import DataBinding.World
