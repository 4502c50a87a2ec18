import SqlWire.Auth.Negotiation
import SqlWire.BitField
import SqlWire.Calendar.Reading
import SqlWire.Connection.Setting
import SqlWire.Connection.Summary
import SqlWire.Handshake.Greeting
import SqlWire.Parameter
import SqlWire.Parameter.Writing
import SqlWire.Proofs.Packet.Frames
import SqlWire.Proofs.Reading
import SqlWire.Proofs.Text.Quoting
import SqlWire.Row
import SqlWire.Proofs.Packet.RoundTrip
import SqlWire.Proofs.Geometry.Grammar
import SqlWire.Proofs.Geometry.Recognition
import SqlWire.Proofs.Number.Literal
import SqlWire.Proofs.Text.Digits
import SqlWire.Proofs.Number.Decimal
import SqlWire.Proofs.Text.Utf8
import SqlWire.Proofs.Layout
import SqlWire.Proofs.Row.Splitting
import SqlWire.Proofs.Calendar.Fields
import SqlWire.Proofs.Column.RoundTrip
import SqlWire.Proofs.Row.RoundTrip
import SqlWire.Proofs.Framing
import SqlWire.Proofs.Column.Framing
import SqlWire.Proofs.Number.Integer
import SqlWire.Proofs.Column.Agreement
import SqlWire.Proofs.Auth.Course
import SqlWire.Proofs.Auth.Rounds
import SqlWire.Proofs.Auth.Secrecy
import SqlWire.Proofs.Failures
import SqlWire.Proofs.Packet.Synchrony
import SqlWire.Proofs.Column.Admission
import SqlWire.Proofs.Calendar.Texts
import SqlWire.Proofs.Column.Literals
import SqlWire.Proofs.Row.Natural
import SqlWire.Proofs.Handshake.Greeting
import SqlWire.Proofs.Row.Exactness
import SqlWire.Proofs.Auth.OverStream
import SqlWire.Proofs.Packet.FrameReading
import SqlWire.Proofs.Packet.Interruption
import SqlWire.Proofs.Packet.Steadiness
import SqlWire.Proofs.Packet.Retry
import SqlWire.Proofs.Column.Definition
import SqlWire.Proofs.Number.Rounding
import SqlWire.Proofs.Number.Truncation
import SqlWire.Proofs.Column.Numerals
import SqlWire.Proofs.Calendar.Fractions
import SqlWire.Proofs.Column.Temporal
import SqlWire.Proofs.Calendar.TimeLiteral
import SqlWire.Proofs.Calendar.Parts
import SqlWire.Proofs.Calendar.Prefixes
import SqlWire.Proofs.Column.Dates
import SqlWire.Proofs.Column.DateTexts
import SqlWire.Proofs.Calendar.Reach
import SqlWire.Proofs.Column.ZeroDates
import SqlWire.Proofs.Text.Truncation
import SqlWire.Proofs.Parameter.Appending
import SqlWire.Proofs.BitField
import SqlWire.Proofs.Column.BitFields
import SqlWire.Proofs.Parameter.Ranges
import SqlWire.Proofs.Floating.Number
import SqlWire.Proofs.Floating.Rounding
import SqlWire.Proofs.Floating.Conversion
import SqlWire.Proofs.Floating.Reading
import SqlWire.Proofs.Column.Truncation
import SqlWire.Proofs.Column.Infinities
import SqlWire.Proofs.Auth.Dialogue
import SqlWire.Proofs.Auth.Disclosure
import SqlWire.Proofs.Auth.Scrambles
import SqlWire.Proofs.Floating.Shortest
import SqlWire.Proofs.Geometry.Text
import SqlWire.Proofs.Floating.Texts
import SqlWire.Proofs.Parameter.Geometries
import SqlWire.Proofs.Handshake.Reply
import SqlWire.Proofs.Auth.Registry
import SqlWire.Proofs.Connection.Address
import SqlWire.Proofs.Connection.Options
import SqlWire.Proofs.Number.Grammar
import SqlWire.Proofs.Access.Basic
import SqlWire.Proofs.Access.RoundTrip
import SqlWire.Proofs.Access.Indexed
import SqlWire.Proofs.Access.Bounds
