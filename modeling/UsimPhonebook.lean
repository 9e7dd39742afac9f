import UsimPhonebook.Card.Queue
import UsimPhonebook.Main
import UsimPhonebook.Proofs.CardFile
import UsimPhonebook.Proofs.Reference.Table
import UsimPhonebook.Proofs.Session.Agreement
import UsimPhonebook.Proofs.Session.Capacity
import UsimPhonebook.Proofs.Session.Containment
import UsimPhonebook.Proofs.Session.Rejection
import UsimPhonebook.Proofs.Session.Retry
import UsimPhonebook.Proofs.Tlv
import UsimPhonebook.Session.Command
import UsimPhonebook.Ticket
import UsimPhonebook.Proofs.Session.Numbering
import UsimPhonebook.Proofs.Session.Requests
import UsimPhonebook.Proofs.Session.Caching
import UsimPhonebook.Proofs.Session.Sharing
import UsimPhonebook.Proofs.Session.Reloading
import UsimPhonebook.Proofs.CommandLine.Arguments
import UsimPhonebook.Proofs.CommandLine.Program
import UsimPhonebook.Proofs.Ticket.Handover
import UsimPhonebook.Proofs.Card.Queue
import UsimPhonebook.Proofs.Session.Metering
import UsimPhonebook.Proofs.Checked.Session
import UsimPhonebook.Proofs.Entry
import UsimPhonebook.Proofs.Text.Alpha
import UsimPhonebook.Proofs.CommandLine.Screen
