import Webserv.Lib.WhileLoop
import Webserv.Lib.Segmented
import Webserv.Lib.FirstMatch
import Webserv.Lib.Fifo
import Webserv.Lib.Bytes
import Webserv.Lib.ChunkedCoding
import Webserv.Config
import Webserv.HttpRequest
import Webserv.Connection
import Webserv.HttpParser.Text
import Webserv.HttpParser.RequestLine
import Webserv.HttpParser.Headers
import Webserv.HttpParser.Body
import Webserv.HttpParser.Feed
import Webserv.HttpParser.ChunkedRun
import Webserv.HttpParser.ChunkedGrammar
import Webserv.HttpParser.Resume
import Webserv.HttpParser.Segmentation
import Webserv.Cgi.Output
import Webserv.Cgi.Roundtrip
import Webserv.FileSystem
import Webserv.ResponseHandler.Page
import Webserv.Cgi.Job
import Webserv.Cgi.Stream
import Webserv.Cgi.HeaderSplit
import Webserv.Lib.Run
import Webserv.Cgi.Delivery
import Webserv.Cgi.Completeness
import Webserv.Lib.Path
import Webserv.Cgi.Request
import Webserv.Cgi.Confinement
import Webserv.ResponseHandler.Path
import Webserv.ResponseHandler.Upload
import Webserv.ResponseHandler.Handle
import Webserv.EventLoop.Read
import Webserv.Lib.HeaderSection
import Webserv.ResponseHandler.Framing
import Webserv.EventLoop.Reading
import Webserv.EventLoop.Response
import Webserv.ResponseHandler.Confinement
import Webserv.EventLoop.Gate
import Webserv.EventLoop.Listeners
import Webserv.HttpParser.VirtualHost
import Webserv.EventLoop.EarlyStat
import Webserv.HttpParser.Labels
import Webserv.HttpParser.Selection
import Webserv.EventLoop.Serving
import Webserv.EventLoop.KeepAlive
import Webserv.HttpParser.Head
import Webserv.HttpParser.Bodyless
import Webserv.EventLoop.HeadLimit
import Webserv.HttpParser.BodyLimit
import Webserv.Lib.Table
import Webserv.EventLoop.Loop
import Webserv.EventLoop.Tables
import Webserv.EventLoop.Clients
import Webserv.EventLoop.Runs
import Webserv.EventLoop.IdleTimeout
import Webserv.Buffer
import Webserv.Buffer.Histories
import Webserv.ResponseHandler.Injection
import Webserv.HttpParser.Spooled
import Webserv.EventLoop.Spool
import Webserv.EventLoop.Completion
import Webserv.EventLoop.Operations
import Webserv.EventLoop.Ownership
import Webserv.EventLoop.Bookkeeping
import Webserv.EventLoop.Readiness
import Webserv.EventLoop.FileCalls
import Webserv.EventLoop.FileRuns
import Webserv.EventLoop.FilesKept
import Webserv.EventLoop.Announced
import Webserv.Config.Routing
import Webserv.Cgi.HeaderFraming
import Webserv.HttpParser.TransferCoding
import Webserv.HttpParser.Decoding
import Webserv.ResponseHandler.NormalPath
import Webserv.ResponseHandler.Mapping
import Webserv.HttpParser.RequestLineGrammar
import Webserv.EventLoop.Rounds
import Webserv.EventLoop.Answered
import Webserv.Cgi.Room
import Webserv.EventLoop.Room
import Webserv.HttpParser.Behind
import Webserv.HttpParser.Newlines
import Webserv.EventLoop.Pipelined
import Webserv.Lib.Numeral
import Webserv.HttpParser.HostGrammar
import Webserv.HttpParser.SizeFields
import Webserv.HttpParser.HeaderFold
import Webserv.ResponseHandler.Multipart
import Webserv.ResponseHandler.FormData
import Webserv.ResponseHandler.UploadName
import Webserv.ResponseHandler.UploadDisk
import Webserv.Lib.Assignments
import Webserv.Config.Interpreters
import Webserv.Cgi.Extension
import Webserv.Cgi.Interpreter
import Webserv.Cgi.Environment
import Webserv.Cgi.ServerName
import Webserv.Lib.Escaping
import Webserv.ResponseHandler.Escape
import Webserv.ResponseHandler.ListingLinks
import Webserv.Lib.Gregorian
import Webserv.Logger
import Webserv.Cgi.BackPressure
import Webserv.Lib.Words
import Webserv.Config.Preprocess
import Webserv.Lib.Cursor
import Webserv.Config.Syntax
import Webserv.Config.Directives
import Webserv.Config.Parser
import Webserv.Config.Grammar
import Webserv.Config.NumericDirectives
import Webserv.Lib.Updates
import Webserv.Config.Blocks
import Webserv.Config.Inheritance
import Webserv.Config.ErrorPages
import Webserv.Config.Settled
import Webserv.Config.Reordering
import Webserv.Lib.Children
import Webserv.EventLoop.Processes
import Webserv.EventLoop.ProcessCalls
import Webserv.Lib.Checks
import Webserv.Config.Layout
import Webserv.Config.Document
import Webserv.Config.Final
import Webserv.Config.Loading
import Webserv.Config.Sound
import Webserv.EventLoop.Isolation
import Webserv.HttpParser.WholeRequest
import Webserv.ResponseHandler.Reads
import Webserv.HttpParser.Prefixes
import Webserv.EventLoop.Arriving
import Webserv.EventLoop.Dialogue
import Webserv.Cgi.Segmentation
import Webserv.HttpParser.Receiving
import Webserv.Cgi.Refusal
