import SecureRtp.Context.Builder
import SecureRtp.Context.Decryption
import SecureRtp.Octets.BigEndian.Lemmas
import SecureRtp.Proofs.Context.Accept
import SecureRtp.Proofs.Context.Build
import SecureRtp.Proofs.Context.Delivery
import SecureRtp.Proofs.KeyStream.Position
import SecureRtp.Proofs.KeyStream.Requests
import SecureRtp.Proofs.Packet.Header
import SecureRtp.Proofs.Rollover.Round
import SecureRtp.Proofs.Rollover.Window
import SecureRtp.Proofs.Rollover.Delay
import SecureRtp.Proofs.Context.Run
import SecureRtp.Proofs.Context.Rejection
import SecureRtp.Proofs.Context.Binding
import SecureRtp.Proofs.CounterBlock
import SecureRtp.Proofs.KeyStream.Blocks
import SecureRtp.Proofs.Context.Separation
import SecureRtp.Proofs.Packet.Cursor
import SecureRtp.Proofs.Packet.Grammar
import SecureRtp.Proofs.Rollover.Loss
import SecureRtp.Proofs.Rollover.Detour
import SecureRtp.Proofs.Context.Repetition
import SecureRtp.Proofs.CounterBlock.Layout
import SecureRtp.Proofs.MasterKey
import SecureRtp.Proofs.Packet.Copies
import SecureRtp.Proofs.Checked.Access
import SecureRtp.Proofs.Checked.KeyStream
import SecureRtp.Proofs.Checked.Receiver
import SecureRtp.Proofs.Checked.Session
import SecureRtp.Proofs.Checked.Faults
import SecureRtp.Proofs.Alignment
import SecureRtp.Proofs.KeyStream.Turns
import SecureRtp.Proofs.Context.Log
