import TabHost.Batch.Keys
import TabHost.Batch.Moves
import TabHost.Batch.Wheel
import TabHost.Content.Basic
import TabHost.Content.Headless
import TabHost.Content.Inert
import TabHost.Content.Journal
import TabHost.Content.Stage
import TabHost.Content.Sum
import TabHost.Decimal.Binary64
import TabHost.Decimal.Shortest
import TabHost.Host.Basic
import TabHost.Host.Run
import TabHost.Host.RunQueue
import TabHost.Input.Event
import TabHost.Input.KeyNames
import TabHost.Input.Modifiers
import TabHost.Json.Basic
import TabHost.Json.Decode
import TabHost.Json.Fragment
import TabHost.Json.Reader
import TabHost.Outcome
import TabHost.Proofs.Batch.Arrivals
import TabHost.Proofs.Batch.Burst
import TabHost.Proofs.Batch.Dispatch
import TabHost.Proofs.Batch.Keys
import TabHost.Proofs.Batch.Moves
import TabHost.Proofs.Batch.Order
import TabHost.Proofs.Batch.Pace
import TabHost.Proofs.Batch.Supersession
import TabHost.Proofs.Batch.Wheel
import TabHost.Proofs.Content.Reactions
import TabHost.Proofs.Content.Visibility
import TabHost.Proofs.Host.Burst
import TabHost.Proofs.Host.Census
import TabHost.Proofs.Host.Deletion
import TabHost.Proofs.Host.Delivery
import TabHost.Proofs.Host.Dialogue
import TabHost.Proofs.Host.Driving
import TabHost.Proofs.Host.Event
import TabHost.Proofs.Host.Fifo
import TabHost.Proofs.Host.FlushOrder
import TabHost.Proofs.Host.History
import TabHost.Proofs.Host.Isolation
import TabHost.Proofs.Host.Leniency
import TabHost.Proofs.Host.Ownership
import TabHost.Proofs.Host.Quiescence
import TabHost.Proofs.Host.RenderOrder
import TabHost.Proofs.Host.Roll
import TabHost.Proofs.Host.Settling
import TabHost.Proofs.Host.Shutdown
import TabHost.Proofs.Host.Step
import TabHost.Proofs.Host.Succession
import TabHost.Proofs.Host.Teardown
import TabHost.Proofs.Host.Tenancy
import TabHost.Proofs.Host.Violations
import TabHost.Proofs.Host.Waiting
import TabHost.Proofs.Host.Wheel
import TabHost.Proofs.Host.WheelOrder
import TabHost.Proofs.Host.Workload
import TabHost.Proofs.Input.ModifierText
import TabHost.Proofs.Json.Literals
import TabHost.Proofs.Json.Reading
import TabHost.Proofs.Render.Newest
import TabHost.Proofs.Render.Registry
import TabHost.Proofs.Render.Tenancy
import TabHost.Proofs.Replay.Script
import TabHost.Proofs.Replay.Session
import TabHost.Proofs.Replay.WheelTime
import TabHost.Proofs.Tab.Acknowledgement
import TabHost.Proofs.Tab.Balance
import TabHost.Proofs.Tab.Batching
import TabHost.Proofs.Tab.Deferral
import TabHost.Proofs.Tab.Demand
import TabHost.Proofs.Tab.Dialogue
import TabHost.Proofs.Tab.Dispatch
import TabHost.Proofs.Tab.Draining
import TabHost.Proofs.Tab.Enabling
import TabHost.Proofs.Tab.Entry
import TabHost.Proofs.Tab.Frame
import TabHost.Proofs.Tab.Intervals
import TabHost.Proofs.Tab.Keys
import TabHost.Proofs.Tab.Keystrokes
import TabHost.Proofs.Tab.Ledger
import TabHost.Proofs.Tab.Marking
import TabHost.Proofs.Tab.Observer
import TabHost.Proofs.Tab.Overtaking
import TabHost.Proofs.Tab.Pace
import TabHost.Proofs.Tab.Reentry
import TabHost.Proofs.Tab.RenderOrder
import TabHost.Proofs.Tab.Rendering
import TabHost.Proofs.Tab.Stages
import TabHost.Proofs.Tab.Surface
import TabHost.Proofs.Tab.Teardown
import TabHost.Proofs.Tab.Turn
import TabHost.Proofs.Tab.Violations
import TabHost.Proofs.Tab.Wheel
import TabHost.Proofs.Tab.WheelRuns
import TabHost.Proofs.Wire.Carrying
import TabHost.Proofs.Wire.Events
import TabHost.Proofs.Wire.Limits
import TabHost.Proofs.Wire.RoundTrip
import TabHost.Proofs.Wire.Variations
import TabHost.Protocol.Fault
import TabHost.Protocol.Link
import TabHost.Protocol.Message
import TabHost.Render.Gate
import TabHost.Render.Surfaces
import TabHost.Replay.Run
import TabHost.Replay.Script
import TabHost.Replay.Session
import TabHost.Replay.Step
import TabHost.Settings
import TabHost.Tab.Basic
import TabHost.Tab.Input
import TabHost.Tab.Lifecycle
import TabHost.Tab.Render
import TabHost.Tab.Requests
import TabHost.Tab.Teardown
import TabHost.Table
import TabHost.Text.Blank
import TabHost.Text.Hex
import TabHost.Text.Lines
import TabHost.Time
import TabHost.Wire.Input
import TabHost.Wire.Message
import TabHost.Wire.Time
import TabHost.Yaml.Anchors
import TabHost.Yaml.Block
import TabHost.Yaml.Cursor
import TabHost.Yaml.Document
import TabHost.Yaml.Gap
import TabHost.Yaml.Layout
import TabHost.Yaml.Name
import TabHost.Yaml.Node
import TabHost.Yaml.Plain
import TabHost.Yaml.Quoted
import TabHost.Yaml.Token
import TabHost.Main
