import Litterae.Addresses
import Litterae.Admin.Custody
import Litterae.Admin.Downgrade
import Litterae.Admin.Eviction
import Litterae.Admin.Hosting
import Litterae.Admin.Recovery
import Litterae.Admin.SecondFactor
import Litterae.Audit.Signature
import Litterae.Auth.Credentials
import Litterae.Crypto.Tamper
import Litterae.Jmap.Cancelling
import Litterae.Jmap.ColorStyle
import Litterae.Jmap.Dates
import Litterae.Jmap.Disposition
import Litterae.Jmap.Isolation
import Litterae.Jmap.Nudges
import Litterae.Jmap.Push
import Litterae.Jmap.Replacing
import Litterae.Jmap.SearchText
import Litterae.Jmap.Validity
import Litterae.Login.Attempts
import Litterae.Mail.Provenance
import Litterae.Queue.Admission
import Litterae.Queue.Envelope
import Litterae.Queue.Mx
import Litterae.Queue.Report
import Litterae.Scan.Clamav
import Litterae.Smtp.ConnLimit
import Litterae.Smtp.Discipline
import Litterae.Smtp.Headers
import Litterae.Smtp.Recipients
import Litterae.Smtp.Servers
import Litterae.Smtp.Slices
import Litterae.Store.Publish
